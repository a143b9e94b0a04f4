import Gpt2Runtime.TokenList
import Gpt2Runtime.Benchmark
import Gpt2Runtime.GenerateSpec
/-
# Which benchmark runs reach the end

The capacity check of `main` counts the tokens the generation loops consume, `prompt + generation_tokens - 1`. The
single-decode measurement consumes `prompt + 1`, which is more exactly when one token is generated: with the capacity
equal to the prompt length its `decode` finds the cache full (`singleDecode_full`). Every other admitted run
reaches the end, if its session can be constructed (`benchmark_ends_iff`).
-/

namespace Gpt2Runtime.Benchmark

open Loop Flat Word CommandLine InferenceSession

/-! ## Admitted options -/

theorem setOption_tokens {options o : Options} {argument : String} {value : List Char} {set : Except Exc Options}
    (h : setOption options argument value = some set) (hset : set = .ok o) (hne : options.tokens ≠ []) : o.tokens ≠ [] := by
  subst hset
  unfold setOption at h
  split_ifs at h <;> simp only [Option.some.injEq, bind_eq_ok, pure_ok, Except.ok.injEq] at h
  · rw [← h]; exact hne
  · obtain ⟨tokens, hparse, rfl⟩ := h
    exact (parseTokens_ok_iff.1 hparse).tokens_ne_nil
  all_goals
    obtain ⟨_, -, rfl⟩ := h
    exact hne

theorem parseFlag_tokens {options o : Options} {argument : String} (h : parseFlag options argument = .ok (some o))
    (hne : options.tokens ≠ []) : o.tokens ≠ [] := by
  unfold parseFlag at h
  split_ifs at h
  · obtain rfl := Option.some.inj (Except.ok.inj h)
    exact hne
  · simp at h

/-- The token list is never empty: it is the default, or `parse_tokens` returned it. -/
theorem parseArguments_tokens : ∀ {arguments : List String} {options o : Options},
    parseArguments options arguments = .ok (some o) → options.tokens ≠ [] → o.tokens ≠ []
  | [], options, o, h, hne => by
    obtain rfl : options = o := Option.some.inj (Except.ok.inj h)
    exact hne
  | [argument], options, o, h, hne => parseFlag_tokens h hne
  | argument :: value :: rest, options, o, h, hne => by
    rw [parseArguments] at h
    cases hset : setOption options argument value.toList with
    | some set =>
      simp only [hset] at h
      obtain ⟨o', ho', h⟩ := bind_eq_ok.1 h
      exact parseArguments_tokens h (setOption_tokens hset ho' hne)
    | none =>
      simp only [hset] at h
      obtain ⟨flag, hflag, h⟩ := bind_eq_ok.1 h
      cases flag with
      | some o' => exact parseArguments_tokens h (parseFlag_tokens hflag hne)
      | none => simp at h

/-- What `parse_options` promises `main`. -/
structure Options.Parsed (options : Options) : Prop where
  tokens : options.tokens ≠ []
  generationTokens : 0 < options.generationTokens.toNat
  repetitions : 0 < options.repetitions.toNat
  threads : options.threads ≠ 0

theorem parseOptions_parsed {arguments : List String} {options : Options} (h : parseOptions arguments = .ok (some options)) :
    options.Parsed := by
  unfold parseOptions at h
  obtain ⟨o, hparse, h⟩ := bind_eq_ok.1 h
  cases o with
  | none => simp at h
  | some o =>
    obtain ⟨u, hcheck, h⟩ := bind_eq_ok.1 h
    obtain rfl : o = options := Option.some.inj (Except.ok.inj h)
    unfold checkOptions at hcheck
    simp only [throwIf_bind_ok, throwIf_ok_iff] at hcheck
    obtain ⟨-, hgeneration, hrepetitions, hthreads⟩ := hcheck
    exact ⟨parseArguments_tokens hparse (by decide), Word.pos_of_ne_zero hgeneration, Word.pos_of_ne_zero hrepetitions, hthreads⟩

/-- The capacity of the session. -/
def Options.sessionCapacity (options : Options) (config : ModelConfig) : UInt64 :=
  if options.capacity = 0 then config.maxSequenceLength else options.capacity

theorem forM_validateBenchmarkToken (config : ModelConfig) (tokens : List Int32) :
    tokens.forM (validateBenchmarkToken config) = throwIf (¬∀ t ∈ tokens, TokenValid config t)
      (.invalidArgument "benchmark token is outside the real vocabulary") := by
  induction tokens with
  | nil => simp
  | cons t ts ih =>
    by_cases h : TokenValid config t
    · simpa [validateBenchmarkToken, throwIf_of_not (tokenValid_iff.2 h), h] using ih
    · simp [validateBenchmarkToken, throwIf_of (not_not.1 (mt tokenValid_iff.1 h)), h]

/-- **What the validation admits**, over the natural numbers. -/
theorem validate_ok_iff {options : Options} {config : ModelConfig} {capacity : UInt64} (hp : options.Parsed) :
    validate options config = .ok capacity ↔ capacity = options.sessionCapacity config ∧
      options.tokens.length + options.generationTokens.toNat ≤ config.maxSequenceLength.toNat ∧
      options.tokens.length + (options.generationTokens.toNat - 1) ≤ capacity.toNat ∧
      capacity.toNat ≤ config.maxSequenceLength.toNat ∧ ∀ t ∈ options.tokens, TokenValid config t := by
  have hG := hp.generationTokens
  have hT := toNat_lt config.maxSequenceLength
  have hlen : options.tokens.length ≤ config.maxSequenceLength.toNat →
      (UInt64.ofNat options.tokens.length).toNat = options.tokens.length := fun h => toNat_ofNat_of_lt (by omega)
  have hcontext : ¬(config.maxSequenceLength.toNat < options.tokens.length ∨
      config.maxSequenceLength - UInt64.ofNat options.tokens.length < options.generationTokens) ↔
      options.tokens.length + options.generationTokens.toNat ≤ config.maxSequenceLength.toNat := by
    rw [not_or, not_lt, lt_iff, not_lt]
    constructor
    · rintro ⟨hle, hsub⟩
      rw [UInt64.toNat_sub_of_le _ _ (by rw [le_iff, hlen hle]; exact hle), hlen hle] at hsub
      omega
    · intro h
      have hle : options.tokens.length ≤ config.maxSequenceLength.toNat := by omega
      rw [UInt64.toNat_sub_of_le _ _ (by rw [le_iff, hlen hle]; exact hle), hlen hle]
      exact ⟨hle, by omega⟩
  have hconsumed : options.tokens.length + options.generationTokens.toNat ≤ config.maxSequenceLength.toNat →
      (UInt64.ofNat options.tokens.length + options.generationTokens - 1).toNat =
        options.tokens.length + (options.generationTokens.toNat - 1) := by
    intro h
    have hsum : (UInt64.ofNat options.tokens.length + options.generationTokens).toNat =
        options.tokens.length + options.generationTokens.toNat := toNat_add_eq (hlen (by omega)) rfl (by omega)
    have hone : (1 : UInt64).toNat = 1 := rfl
    rw [UInt64.toNat_sub_of_le _ _ (by rw [le_iff, hsum, hone]; omega), hsum, hone]
    omega
  unfold validate
  simp only [throwIf_bind_ok, forM_validateBenchmarkToken, pure_ok, Except.ok.injEq, not_not, hcontext]
  unfold Options.sessionCapacity
  constructor
  · rintro ⟨hfits, hcapacity, hvalid, rfl⟩
    rw [not_or, lt_iff, lt_iff, not_lt, not_lt, hconsumed hfits] at hcapacity
    exact ⟨rfl, hfits, hcapacity.1, hcapacity.2, hvalid⟩
  · rintro ⟨rfl, hfits, hroom, hle, hvalid⟩
    refine ⟨hfits, ?_, hvalid, rfl⟩
    rw [not_or, lt_iff, lt_iff, not_lt, not_lt, hconsumed hfits]
    exact ⟨hroom, hle⟩

/-! ## `measure` -/

section
variable {E σ : Type} {host : Host E} {warmup repetitions : UInt64} {setup operation : σ → Except Exc σ}

/-- **Measuring keeps an invariant**, and what one operation leaves is left at the end. -/
theorem measure_ok {I J : σ → Prop} (hreserve : host.reserve repetitions = .ok ()) (hr : 0 < repetitions.toNat)
    (hstep : ∀ s, I s → ∃ s', (setup s >>= operation) = .ok s' ∧ I s' ∧ J s') {s : σ} (hs : I s) :
    ∃ s', measure host warmup repetitions setup operation s = .ok s' ∧ I s' ∧ J s' := by
  obtain ⟨s₁, hwarmup, hI, -⟩ := forN_repeat hstep warmup.toNat hs
  obtain ⟨s₂, hrun, hI', hJ⟩ := forN_repeat hstep repetitions.toNat hI
  exact ⟨s₂, by simp only [measure, forSize, hwarmup, hreserve, hrun, ok_bind], hI', hJ hr⟩

/-- A measurement that returns got the room for its timings. -/
theorem reserve_of_measure {s s' : σ} (h : measure host warmup repetitions setup operation s = .ok s') :
    host.reserve repetitions = .ok () := by
  obtain ⟨s₁, -, h⟩ := bind_eq_ok.1 h
  obtain ⟨⟨⟩, hreserve, -⟩ := bind_eq_ok.1 h
  exact hreserve

/-- A first operation that throws ends the measurement, unless it gets no room for its timings before. -/
theorem measure_error {s : σ} {e : Exc} (hr : 0 < repetitions.toNat) (h : (setup s >>= operation) = .error e) :
    measure host warmup repetitions setup operation s =
      if warmup = 0 then host.reserve repetitions >>= fun _ => .error e else .error e := by
  unfold measure forSize
  split
  · next hw =>
    rw [hw, show (0 : UInt64).toNat = 0 from rfl, forN_zero, ok_bind, forN_error h hr]
  · next hw => rw [forN_error h (Word.pos_of_ne_zero hw), error_bind]

end

/-! ## The measurements -/

section
variable {α : Type} [Scalar α] {model : GPT2Model α} {host : Host (Executor α)} {options : Options} {capacity : UInt64}
  {executor : Option (Executor α)} {session : InferenceSession model} {P : List Int32}

/-- A full session refuses another token. -/
theorem decode_full (h : session.Holds capacity P) (hne : P ≠ []) (hfull : P.length = capacity.toNat) {token : Int32}
    (hvalid : TokenValid model.weights.config token) :
    session.decode token executor = .error (.lengthError "session KV cache is full", session) := by
  have hcheck : (model.machine capacity).checkDecode P token = .error (.lengthError "session KV cache is full") := by
    have hvocabulary : InVocabulary (model.machine capacity).vocabulary token := hvalid
    have hcapacity : P.length = (model.machine capacity).capacity := hfull
    unfold TokenMachine.checkDecode
    rw [throwIf_of_not hne, ok_bind, throwIf_of_not (not_not.2 hvocabulary), ok_bind, throwIf_of hcapacity]
  simp only [InferenceSession.decode, h.validateDecode, hcheck, keep_error, error_bind]

/-- `session.reset(); session.prefill(options.tokens);` -/
theorem resetPrefill_ok (hf : Faithful executor) (hp : options.Parsed)
    (hvalid : ∀ t ∈ options.tokens, TokenValid model.weights.config t) (hle : options.tokens.length ≤ capacity.toNat)
    (h : session.Holds capacity P) :
    ∃ s', thrown (session.reset.prefill options.tokens executor) = .ok s' ∧ s'.Holds capacity options.tokens ∧
      s'.logits = model.logits options.tokens := by
  obtain ⟨s', hok, hholds, hlogits⟩ := h.reset.prefill_ok hp.tokens hle hvalid hf
  exact ⟨s', by rw [hok, thrown], hholds, hlogits⟩

theorem prefillPhase_ok (hreserve : host.reserve options.repetitions = .ok ()) (hf : Faithful executor) (hp : options.Parsed)
    (hvalid : ∀ t ∈ options.tokens, TokenValid model.weights.config t) (hle : options.tokens.length ≤ capacity.toNat)
    (h : session.Holds capacity P) :
    ∃ s', prefillPhase host options executor session = .ok s' ∧ s'.Holds capacity options.tokens := by
  have hstep : ∀ s : InferenceSession model, (∃ P, s.Holds capacity P) →
      ∃ s', ((.ok s.reset : Except Exc (InferenceSession model)) >>= fun s => thrown (s.prefill options.tokens executor)) =
        .ok s' ∧ (∃ P, s'.Holds capacity P) ∧ s'.Holds capacity options.tokens := by
    rintro s ⟨P, hs⟩
    obtain ⟨s', hok, hholds, -⟩ := resetPrefill_ok hf hp hvalid hle hs
    exact ⟨s', by rw [ok_bind, hok], ⟨_, hholds⟩, hholds⟩
  obtain ⟨s', hok, -, hholds⟩ := measure_ok hreserve hp.repetitions hstep ⟨P, h⟩
  exact ⟨s', hok, hholds⟩

/-- With room for one more token. -/
theorem singleDecode_ok (hreserve : host.reserve options.repetitions = .ok ()) (hf : Faithful executor) (hp : options.Parsed)
    (hvalid : ∀ t ∈ options.tokens, TokenValid model.weights.config t) (hlt : options.tokens.length < capacity.toNat)
    {token : Int32} (htoken : TokenValid model.weights.config token) (h : session.Holds capacity P) :
    ∃ s', singleDecode host options executor token session = .ok s' ∧ s'.Holds capacity (options.tokens ++ [token]) := by
  have hstep : ∀ s : InferenceSession model, (∃ P, s.Holds capacity P) →
      ∃ s', (thrown (s.reset.prefill options.tokens executor) >>= fun s => thrown (s.decode token executor)) = .ok s' ∧
        (∃ P, s'.Holds capacity P) ∧ s'.Holds capacity (options.tokens ++ [token]) := by
    rintro s ⟨P, hs⟩
    obtain ⟨s₁, hprefill, hholds, -⟩ := resetPrefill_ok hf hp hvalid (Nat.le_of_lt hlt) hs
    obtain ⟨s₂, hdecode, hholds', -⟩ := hholds.decode_ok hp.tokens hlt htoken hf
    exact ⟨s₂, by rw [hprefill, ok_bind, hdecode, thrown], ⟨_, hholds'⟩, hholds'⟩
  obtain ⟨s', hok, -, hholds⟩ := measure_ok hreserve hp.repetitions hstep ⟨P, h⟩
  exact ⟨s', hok, hholds⟩

/-- Without: the first `decode` throws. -/
theorem singleDecode_full (hreserve : host.reserve options.repetitions = .ok ()) (hf : Faithful executor) (hp : options.Parsed)
    (hvalid : ∀ t ∈ options.tokens, TokenValid model.weights.config t) (hfull : options.tokens.length = capacity.toNat)
    {token : Int32} (htoken : TokenValid model.weights.config token) (h : session.Holds capacity P) :
    singleDecode host options executor token session = .error (.lengthError "session KV cache is full") := by
  obtain ⟨s₁, hprefill, hholds, -⟩ := resetPrefill_ok hf hp hvalid (Nat.le_of_eq hfull) h
  have hthrows : (thrown (session.reset.prefill options.tokens executor) >>= fun s => thrown (s.decode token executor)) =
      .error (.lengthError "session KV cache is full") := by
    rw [hprefill, ok_bind, decode_full hholds hp.tokens hfull htoken, thrown]
  rw [singleDecode, measure_error hp.repetitions hthrows, hreserve, ok_bind, ite_self]

theorem fullGenerationSteps_ok (hp : options.Parsed) (hvalid : ∀ t ∈ options.tokens, TokenValid model.weights.config t)
    {G : Nat} (hle : options.tokens.length + G ≤ model.weights.config.maxSequenceLength.toNat) (s : FullGeneration α) :
    ∃ ws, forSize G { s with tokens := options.tokens } (fun _ s => fullGenerationStep model s) =
      .ok { s with tokens := greedy model.logits options.tokens G, workspace := ws } := by
  have hstep : ∀ i (t : FullGeneration α), i < G →
      (∃ ws, t = { s with tokens := greedy model.logits options.tokens i, workspace := ws }) →
      ∃ t', fullGenerationStep model t = .ok t' ∧
        ∃ ws, t' = { s with tokens := greedy model.logits options.tokens (i + 1), workspace := ws } := by
    rintro i _ hi ⟨ws, rfl⟩
    obtain ⟨ws', hok, hlogits⟩ := machine_logits model model.weights.config.maxSequenceLength
      (greedy_accepted hp.tokens hvalid (show options.tokens.length + i ≤ _ by omega)) ws
    exact ⟨_, by simp only [fullGenerationStep, hok, thrown, hlogits, ok_bind, pure_ok]; rfl, ws', rfl⟩
  obtain ⟨_, hok, ws, rfl⟩ := forN_spec
    (I := fun i t => ∃ ws, t = { s with tokens := greedy model.logits options.tokens i, workspace := ws }) ⟨s.workspace, rfl⟩ hstep
  exact ⟨ws, hok⟩

/-- **Full-prefix generation** records the greedy tokens. -/
theorem fullGeneration_ok (hreserve : host.reserve options.repetitions = .ok ()) (hp : options.Parsed)
    (hvalid : ∀ t ∈ options.tokens, TokenValid model.weights.config t)
    (hle : options.tokens.length + options.generationTokens.toNat ≤ model.weights.config.maxSequenceLength.toNat) :
    ∃ s, fullGeneration host options model = .ok s ∧
      s.lastTokens = greedy model.logits options.tokens options.generationTokens.toNat := by
  obtain ⟨s, hok, -, hlast⟩ : ∃ s, fullGeneration host options model = .ok s ∧ True ∧
      s.lastTokens = greedy model.logits options.tokens options.generationTokens.toNat := by
    refine measure_ok (I := fun _ => True) hreserve hp.repetitions ?_ trivial
    intro s _
    obtain ⟨ws, hloop⟩ := fullGenerationSteps_ok hp hvalid hle s
    exact ⟨_, by simp only [ok_bind, hloop, pure_ok]; rfl, trivial, rfl⟩
  exact ⟨s, hok, hlast⟩

/-- The state before step `i` of cached generation. -/
structure CachedGeneration.Before (capacity : UInt64) (prompt : List Int32) (G i : Nat) (s : CachedGeneration model) : Prop where
  tokens : s.tokens = greedy model.logits prompt i
  holds : s.session.Holds capacity (greedy model.logits prompt (min i (G - 1)))
  logits : s.session.logits = model.logits (greedy model.logits prompt (min i (G - 1)))

theorem cachedGenerationSteps_ok (hf : Faithful executor) (hp : options.Parsed)
    (hroom : options.tokens.length + (options.generationTokens.toNat - 1) ≤ capacity.toNat) {s : CachedGeneration model}
    (hs : s.Before capacity options.tokens options.generationTokens.toNat 0) :
    ∃ s', forSize options.generationTokens.toNat s (fun step s => cachedGenerationStep options executor step s) = .ok s' ∧
      s'.Before capacity options.tokens options.generationTokens.toNat options.generationTokens.toNat := by
  refine forN_spec (I := fun i s => CachedGeneration.Before capacity options.tokens options.generationTokens.toNat i s) hs ?_
  rintro i s hi ⟨htokens, hholds, hlogits⟩
  obtain ⟨session, hsession, hholds', hlogits', hnext⟩ := decodeStep_ok hf hp.tokens hholds hlogits hi hroom
  refine ⟨_, by simp only [cachedGenerationStep, decodeNext, hsession, ok_bind, pure_ok]; rfl, ?_, hholds', hlogits'⟩
  rw [htokens, hnext, greedy_succ]

/-- **Cached generation** records the same tokens. -/
theorem cachedGeneration_ok (hreserve : host.reserve options.repetitions = .ok ()) (hf : Faithful executor) (hp : options.Parsed)
    (hvalid : ∀ t ∈ options.tokens, TokenValid model.weights.config t)
    (hroom : options.tokens.length + (options.generationTokens.toNat - 1) ≤ capacity.toNat) (h : session.Holds capacity P) :
    ∃ s, cachedGeneration host options executor session = .ok s ∧
      s.lastTokens = greedy model.logits options.tokens options.generationTokens.toNat := by
  obtain ⟨s, hok, -, hlast⟩ : ∃ s, cachedGeneration host options executor session = .ok s ∧
      (∃ P, s.session.Holds capacity P) ∧
      s.lastTokens = greedy model.logits options.tokens options.generationTokens.toNat := by
    refine measure_ok (I := fun s : CachedGeneration model => ∃ P, s.session.Holds capacity P) hreserve hp.repetitions ?_ ⟨P, h⟩
    rintro s ⟨P, hs⟩
    obtain ⟨session', hprefill, hholds, hlogits⟩ := resetPrefill_ok hf hp hvalid (by omega) hs
    have hbefore : CachedGeneration.Before capacity options.tokens options.generationTokens.toNat 0
        { s with tokens := options.tokens, session := session' } := by
      refine ⟨rfl, ?_, ?_⟩
      · rw [Nat.zero_min]; exact hholds
      · rw [Nat.zero_min]; exact hlogits
    obtain ⟨s', hloop, htokens, hholds', -⟩ := cachedGenerationSteps_ok hf hp hroom hbefore
    exact ⟨{ s' with lastTokens := s'.tokens }, by simp only [ok_bind, hprefill, hloop, pure_ok], ⟨_, hholds'⟩, htokens⟩
  exact ⟨s, hok, hlast⟩

/-! ## A whole run -/

/-- One token is generated and the cache has room for the prompt only. -/
def Options.Tight (options : Options) (capacity : UInt64) : Prop :=
  options.generationTokens = 1 ∧ capacity.toNat = options.tokens.length

/-- A run that is not tight has room for the token of the single decode. -/
theorem room_of_not_tight (hp : options.Parsed) (hroom : options.tokens.length + (options.generationTokens.toNat - 1) ≤ capacity.toNat)
    (htight : ¬options.Tight capacity) : options.tokens.length < capacity.toNat := by
  have hG := hp.generationTokens
  by_cases hone : options.generationTokens = 1
  · have hne : capacity.toNat ≠ options.tokens.length := fun h => htight ⟨hone, h⟩
    omega
  · have hne : options.generationTokens.toNat ≠ 1 := fun h => hone (UInt64.toNat_inj.1 h)
    omega

theorem fullPrefix_ok (hreserve : host.reserve options.repetitions = .ok ()) (hp : options.Parsed)
    (hvalid : ∀ t ∈ options.tokens, TokenValid model.weights.config t)
    (hle : options.tokens.length + options.generationTokens.toNat ≤ model.weights.config.maxSequenceLength.toNat) :
    fullPrefix host options model = .ok (if options.skipFullPrefix then none
      else some (greedy model.logits options.tokens options.generationTokens.toNat)) := by
  unfold fullPrefix
  split
  · rfl
  · obtain ⟨s, hok, hlast⟩ := fullGeneration_ok hreserve hp hvalid hle
    rw [hok, ok_bind, hlast]
    rfl

/-- **The four measurements return** on a session with room, and the generations agree. -/
theorem generations_ok (hreserve : host.reserve options.repetitions = .ok ()) (hf : Faithful executor) (hp : options.Parsed)
    (hv : validate options model.weights.config = .ok capacity) (htight : ¬options.Tight capacity)
    (h : session.Holds capacity []) : ∃ g, generations host options executor session = .ok g := by
  obtain ⟨-, hle, hroom, -, hvalid⟩ := (validate_ok_iff hp).1 hv
  have hlt := room_of_not_tight hp hroom htight
  obtain ⟨s₁, hprefill, hholds₁⟩ := prefillPhase_ok hreserve hf hp hvalid (Nat.le_of_lt hlt) h
  obtain ⟨s₂, hinitial, hholds₂, hlogits⟩ := resetPrefill_ok hf hp hvalid (Nat.le_of_lt hlt) hholds₁
  have htoken : TokenValid model.weights.config (greedyToken s₂.logits) := by
    rw [hlogits]
    exact greedyToken_logits_valid model _
  obtain ⟨s₃, hdecode, hholds₃⟩ := singleDecode_ok hreserve hf hp hvalid hlt htoken hholds₂
  obtain ⟨s₄, hcached, hlast⟩ := cachedGeneration_ok hreserve hf hp hvalid hroom hholds₃
  have hagree : ¬((if options.skipFullPrefix then none
        else some (greedy model.logits options.tokens options.generationTokens.toNat)) ≠ none ∧
      (if options.skipFullPrefix then none
        else some (greedy model.logits options.tokens options.generationTokens.toNat)) ≠ some s₄.lastTokens) := by
    rw [hlast]
    split <;> simp
  exact ⟨_, by simp only [generations, hprefill, hinitial, hdecode, fullPrefix_ok hreserve hp hvalid hle, hcached,
    throwIf_of_not hagree, ok_bind, pure_ok]; rfl⟩

/-- In a tight run the single decode throws. -/
theorem generations_full (hreserve : host.reserve options.repetitions = .ok ()) (hf : Faithful executor) (hp : options.Parsed)
    (hv : validate options model.weights.config = .ok capacity) (htight : options.Tight capacity)
    (h : session.Holds capacity []) :
    generations host options executor session = .error (.lengthError "session KV cache is full") := by
  obtain ⟨-, hle, hroom, -, hvalid⟩ := (validate_ok_iff hp).1 hv
  have hfull : options.tokens.length = capacity.toNat := htight.2.symm
  obtain ⟨s₁, hprefill, hholds₁⟩ := prefillPhase_ok hreserve hf hp hvalid (Nat.le_of_eq hfull) h
  obtain ⟨s₂, hinitial, hholds₂, hlogits⟩ := resetPrefill_ok hf hp hvalid (Nat.le_of_eq hfull) hholds₁
  have htoken : TokenValid model.weights.config (greedyToken s₂.logits) := by
    rw [hlogits]
    exact greedyToken_logits_valid model _
  simp only [generations, hprefill, hinitial, singleDecode_full hreserve hf hp hvalid hfull htoken hholds₂, ok_bind, error_bind]

theorem generations_ok_iff (hreserve : host.reserve options.repetitions = .ok ()) (hf : Faithful executor) (hp : options.Parsed)
    (hv : validate options model.weights.config = .ok capacity) (h : session.Holds capacity []) :
    (∃ g, generations host options executor session = .ok g) ↔ ¬options.Tight capacity := by
  constructor
  · rintro ⟨g, hok⟩ htight
    rw [generations_full hreserve hf hp hv htight h] at hok
    cases hok
  · intro htight
    exact generations_ok hreserve hf hp hv htight h

theorem sessionCreation_ok (hreserve : host.reserve options.repetitions = .ok ()) (hp : options.Parsed)
    (hmake : InferenceSession.make model capacity = .ok session) :
    ∃ s, sessionCreation host options model capacity = .ok s := by
  obtain ⟨s, hok, -⟩ : ∃ s, sessionCreation host options model capacity = .ok s ∧ True ∧ True := by
    refine measure_ok (I := fun _ => True) hreserve hp.repetitions ?_ trivial
    intro s _
    exact ⟨some session, by simp only [hmake, ok_bind, pure_ok], trivial, trivial⟩
  exact ⟨s, hok⟩

/-- **The projections return**: their products fit and their spans have the sizes `linear` asks for. -/
theorem projections_ok (hreserve : host.reserve options.repetitions = .ok ()) (hp : options.Parsed)
    (hle : options.tokens.length ≤ model.weights.config.maxSequenceLength.toNat) :
    ∃ out, projections host options model = .ok out := by
  have hw := model.wellFormed
  have hsz := hw.sizes
  have hpad := hw.valid.padded_ge
  have hT := toNat_lt model.weights.config.maxSequenceLength
  have hpos := List.length_pos_iff.2 hp.tokens
  obtain ⟨rows, hrows⟩ : ∃ rows, rows = UInt64.ofNat options.tokens.length := ⟨_, rfl⟩
  have hn : rows.toNat = options.tokens.length := by rw [hrows]; exact toNat_ofNat_of_lt (by omega)
  have hfit : RowsFit model.weights.config rows := hsz.rowsFit (by omega) (by omega)
  obtain ⟨hrow, -, hRC, hRV⟩ := hfit
  have hVC := model.realVocabulary_lt
  have hRV' : rows.toNat * model.weights.config.vocabularySize.toNat < 2 ^ 62 :=
    Nat.lt_of_le_of_lt (Nat.mul_le_mul_left _ hpad) hRV
  have eRC := toNat_mul_of_lt (Nat.lt_trans hRC (by decide))
  have eRV := toNat_mul_of_lt (Nat.lt_trans hRV' (by decide))
  obtain ⟨wte, hwte, hmat⟩ := model.wte_ok
  obtain ⟨weight, hfirst, hweight⟩ := model.realVocabulary_ok hmat
  obtain ⟨input, hinput⟩ : ∃ input : List α, input = (List.range (rows * model.weights.config.channels).toNat).map fun index =>
    Scalar.ofSize (index % 17) * Scalar.ofBits 0x3C23D70A := ⟨_, rfl⟩
  have hlen : input.length = rows.toNat * model.weights.config.channels.toNat := by
    rw [hinput, List.length_map, List.length_range, eRC]
  have hCle := row_end_le (C := model.weights.config.channels.toNat) hrow
  obtain ⟨row, hlast, hrowLen⟩ : ∃ row, last input model.weights.config.channels = .ok row ∧
      row.length = model.weights.config.channels.toNat := by
    refine ⟨_, last_ok (by omega), ?_⟩
    rw [List.length_drop]
    omega
  have hbias : Kernels.IsBias ([] : List α) model.weights.config.vocabularySize.toNat (fun _ => 0) := .inl ⟨rfl, rfl⟩
  obtain ⟨all, hall, -⟩ : ∃ out, measure host options.warmup options.repetitions (fun output => .ok output)
      (fun output => Kernels.linear output input weight [] rows model.weights.config.channels model.weights.config.vocabularySize)
      (List.replicate (rows * model.weights.config.vocabularySize).toNat (0 : α)) = .ok out ∧
      out.length = rows.toNat * model.weights.config.vocabularySize.toNat ∧ True := by
    refine measure_ok hreserve hp.repetitions ?_ (by rw [List.length_replicate, eRV])
    intro output hout
    obtain ⟨out, hok, hm⟩ := Kernels.linear_ok model.weights.config.channels model.weights.config.vocabularySize
      (Nat.lt_trans hRV' (by decide)) (Nat.lt_trans hRC (by decide)) (Nat.lt_trans hVC (by decide)) hout
      (IsVec.of_length (0 : α) hlen).toMat hweight hbias
    exact ⟨out, by rw [ok_bind, hok], hm.1, trivial⟩
  obtain ⟨one, hone, -⟩ : ∃ out, measure host options.warmup options.repetitions (fun output => .ok output)
      (fun output => do
        let row ← last input model.weights.config.channels
        Kernels.linear output row weight [] 1 model.weights.config.channels model.weights.config.vocabularySize)
      (List.replicate model.weights.config.vocabularySize.toNat (0 : α)) = .ok out ∧
      out.length = model.weights.config.vocabularySize.toNat ∧ True := by
    refine measure_ok hreserve hp.repetitions ?_ (List.length_replicate)
    intro output hout
    obtain ⟨out, hok, hm⟩ := Kernels.linear_row_ok model.weights.config.channels model.weights.config.vocabularySize
      (Nat.lt_trans hVC (by decide)) hout (IsVec.of_length (0 : α) hrowLen) hweight hbias
    exact ⟨out, by rw [ok_bind, hlast, ok_bind, hok], hm.1, trivial⟩
  exact ⟨(all, one), by simp only [projections, ← hrows, ← hinput, hwte, hfirst, hall, hone, ok_bind, pure_ok]⟩

/-- The host gives the benchmark its executor and the room for its timings. -/
structure Options.Granted (options : Options) (host : Host (Executor α)) : Prop where
  executor : host.Grants options.threads
  timings : host.reserve options.repetitions = .ok ()

/-- None of the calls of the four measurements throws and the generations agree, on a session that was constructed. -/
def MeasurementsReturn (host : Host (Executor α)) (options : Options) (executor : Option (Executor α)) (model : GPT2Model α)
    (capacity : UInt64) : Prop :=
  ∀ session : InferenceSession model, InferenceSession.make model capacity = .ok session →
    ∃ g, generations host options executor session = .ok g

end

/-- **Which admitted runs reach the end.** Without a session (its cache's size overflows `size_t`) no call is made; with
one, the measurements return exactly when the run is not tight. -/
theorem benchmark_ends_iff {α : Type} [Scalar α] {model : GPT2Model α} {host : Host (Executor α)} (hserves : host.Serves)
    {arguments : List String} {options : Options} (hparse : parseOptions arguments = .ok (some options))
    (hgranted : options.Granted host) {capacity : UInt64}
    (hvalid : validate options model.weights.config = .ok capacity) :
    ((∃ g, run host options model = .ok g) ↔
      8 * (model.weights.config.numLayers.toNat * (capacity.toNat * model.weights.config.channels.toNat)) < 2 ^ 64 ∧
        ¬options.Tight capacity) ∧
    ∃ executor, makeExecutor host options.threads = .ok executor ∧
      (MeasurementsReturn host options executor model capacity ↔
        (8 * (model.weights.config.numLayers.toNat * (capacity.toNat * model.weights.config.channels.toNat)) < 2 ^ 64 →
          ¬options.Tight capacity)) := by
  have hp := parseOptions_parsed hparse
  obtain ⟨-, hle, hroom, hcapacity, -⟩ := (validate_ok_iff hp).1 hvalid
  have hreserve := hgranted.timings
  obtain ⟨executor, hexecutor⟩ := (grants_iff hp.threads).1 hgranted.executor
  have hf := hserves.faithful hexecutor
  have hpos := List.length_pos_iff.2 hp.tokens
  have hfits : (∃ session, InferenceSession.make model capacity = .ok session) ↔
      8 * (model.weights.config.numLayers.toNat * (capacity.toNat * model.weights.config.channels.toNat)) < 2 ^ 64 := by
    rw [make_ok_iff]
    exact ⟨fun h => h.2.2, fun h => ⟨by omega, hcapacity, h⟩⟩
  have hreturns : ∀ session : InferenceSession model, InferenceSession.make model capacity = .ok session →
      ((∃ g, generations host options executor session = .ok g) ↔ ¬options.Tight capacity) := fun session hmake =>
    generations_ok_iff hreserve hf hp hvalid (make_holds hmake).2
  refine ⟨?_, executor, hexecutor, ?_⟩
  · constructor
    · rintro ⟨g, hrun⟩
      simp only [run, hexecutor, hvalid, ok_bind] at hrun
      obtain ⟨-, -, hrun⟩ := bind_eq_ok.1 hrun
      obtain ⟨session, hmake, hrun⟩ := bind_eq_ok.1 hrun
      obtain ⟨g', hg, -⟩ := bind_eq_ok.1 hrun
      exact ⟨hfits.1 ⟨session, hmake⟩, (hreturns session hmake).1 ⟨g', hg⟩⟩
    · rintro ⟨hsize, htight⟩
      obtain ⟨session, hmake⟩ := hfits.2 hsize
      obtain ⟨created, hcreated⟩ := sessionCreation_ok hreserve hp hmake
      obtain ⟨g, hg⟩ := (hreturns session hmake).2 htight
      have hcontext : options.tokens.length ≤ model.weights.config.maxSequenceLength.toNat := by omega
      obtain ⟨projected, hprojected⟩ := projections_ok hreserve hp hcontext
      exact ⟨g, by simp only [run, hexecutor, hvalid, hcreated, hmake, hg, hprojected, ok_bind, pure_ok]⟩
  · constructor
    · intro hall hsize
      obtain ⟨session, hmake⟩ := hfits.2 hsize
      exact (hreturns session hmake).1 (hall session hmake)
    · intro htight session hmake
      exact (hreturns session hmake).2 (htight (hfits.1 ⟨session, hmake⟩))

/-- One token is generated from token 0, on a cache of `capacity` tokens. -/
def tinyRun (capacity : UInt64) : Options := { checkpoint := ['m'], tokens := [0], generationTokens := 1, capacity }

def tinyArguments (capacity : String) : List String :=
  ["--checkpoint", "m", "--tokens", "0", "--generation-tokens", "1", "--capacity", capacity]

theorem parse_tinyArguments {text : String} {capacity : UInt64} (h : parseSize text.toList "--capacity" = .ok capacity) :
    parseOptions (tinyArguments text) = .ok (some (tinyRun capacity)) := by
  have htokens : parseTokens ['0'] = .ok [0] := parseTokens_ok_iff.2 (.one (Item.digit rfl rfl))
  have hgeneration : parseSize ['1'] "--generation-tokens" = .ok 1 := rfl
  simp [parseOptions, tinyArguments, tinyRun, parseArguments, setOption, htokens, hgeneration, h, checkOptions]

/-- A host that refuses nothing, with executors that never throw. -/
def tinyHost : Host (Executor Int) := .granting fun _ => faulting fun _ => none

/-- The cache holds the prompt and no more: the validation admits the run, and the single decode throws. -/
theorem benchmark_tight_tiny : parseOptions (tinyArguments "1") = .ok (some (tinyRun 1)) ∧
    validate (tinyRun 1) tinyModel.weights.config = .ok 1 ∧
    (∃ session, InferenceSession.make tinyModel 1 = .ok session ∧
      generations tinyHost (tinyRun 1) none session = .error (.lengthError "session KV cache is full")) ∧
    ¬∃ g, run tinyHost (tinyRun 1) tinyModel = .ok g := by
  have hparse : parseOptions (tinyArguments "1") = .ok (some (tinyRun 1)) := parse_tinyArguments rfl
  have hp := parseOptions_parsed hparse
  have hvalid : validate (tinyRun 1) tinyModel.weights.config = .ok 1 := by
    rw [validate_ok_iff hp]
    decide
  have htight : (tinyRun 1).Tight 1 := ⟨rfl, rfl⟩
  have hf : Faithful (none : Option (Executor Int)) := fun _ _ _ h => h
  obtain ⟨session, hmake⟩ := (make_ok_iff tinyModel 1).2 (by refine ⟨?_, ?_, ?_⟩ <;> decide)
  have hfull : generations tinyHost (tinyRun 1) none session = .error (.lengthError "session KV cache is full") :=
    generations_full rfl hf hp hvalid htight (make_holds hmake).2
  refine ⟨hparse, hvalid, ⟨session, hmake, hfull⟩, ?_⟩
  rintro ⟨g, hrun⟩
  have hexecutor : makeExecutor tinyHost (tinyRun 1).threads = .ok none := rfl
  simp only [run, hexecutor, hvalid, hmake, hfull, ok_bind, error_bind] at hrun
  obtain ⟨-, -, hrun⟩ := bind_eq_ok.1 hrun
  cases hrun

/-- With room for one token more the run reaches the end. -/
theorem benchmark_ends_iff_tiny : ∃ g, run tinyHost (tinyRun 2) tinyModel = .ok g := by
  have hparse : parseOptions (tinyArguments "2") = .ok (some (tinyRun 2)) := parse_tinyArguments rfl
  have hvalid : validate (tinyRun 2) tinyModel.weights.config = .ok 2 := by
    rw [validate_ok_iff (parseOptions_parsed hparse)]
    decide
  have htight : ¬(tinyRun 2).Tight 2 := fun h => absurd h.2 (by decide)
  exact (benchmark_ends_iff serves_faulting hparse ⟨Host.grants_granting _ _, rfl⟩ hvalid).1.2 ⟨by decide, htight⟩

end Gpt2Runtime.Benchmark
