import Gpt2Runtime.GenerateMain
import Gpt2Runtime.LayoutSpec
/-
# How the generator fails (`app/gpt2_generate.cpp`)

| here | there |
| --- | --- |
| `InferenceSession.rejection` | what the constructors of the session and its cache throw (`session.cpp:31-37`, `:41-56`) |
| `refusal`               | what the constructor of the executor throws (`linear_executor.cpp:16-30`), which is up to the host |
| `tokenRejection`        | what `forward` and `prefill` throw for the prompt (`model.cpp:303-308`, `session.cpp:157-159`) |
| `rejection`             | the first check of a run that fails, over the natural numbers |
| `Fails`                 | the exceptions `main` reports, by the place they come from |

Every command line that does not succeed ends in one of these checks: no failure comes from an access outside a span,
and a prompt, a context and a capacity that pass them never fail later (`main_fails_iff`).
-/

namespace Gpt2Runtime

open Loop Flat Word

variable {α : Type}

/-! ## The host -/

/-- What a computation throws. -/
def refusal {β : Type} : Except Exc β → Option Exc
  | .ok _ => none
  | .error e => some e

theorem refusal_eq_none_iff {β : Type} {x : Except Exc β} : refusal x = none ↔ ∃ b, x = .ok b := by
  cases x <;> simp [refusal]

namespace InferenceSession

/-- The product of the cache's constructor that overflows first, when the whole cache does not fit. -/
def cacheOverflow (floats : Nat) : String :=
  if 2 ^ 64 ≤ floats then "KV cache storage size"
  else if 2 ^ 64 ≤ 2 * floats then "combined K/V float count"
  else "combined K/V storage bytes"

def cacheFloats (config : ModelConfig) (capacity : UInt64) : Nat :=
  config.numLayers.toNat * (capacity.toNat * config.channels.toNat)

def rejection (config : ModelConfig) (capacity : UInt64) : Option Exc :=
  if capacity = 0 ∨ config.maxSequenceLength < capacity then
    some (.invalidArgument "session capacity is outside the model context length")
  else if 2 ^ 64 ≤ 8 * cacheFloats config capacity then some (overflow (cacheOverflow (cacheFloats config capacity)))
  else none

theorem rejection_eq_none_iff {config : ModelConfig} {capacity : UInt64} :
    rejection config capacity = none ↔ CapacityFits config capacity := by
  unfold rejection CapacityFits cacheFloats
  split_ifs with hrange hfits
  · rw [eq_zero_iff, lt_iff] at hrange
    simp only [false_iff]
    omega
  · simp only [false_iff]
    omega
  · rw [eq_zero_iff, lt_iff] at hrange
    simp only [true_iff]
    omega

/-- A cache of in-range dimensions that does not fit stops at its first product out of range. -/
theorem make_overflow [Zero α] {numLayers capacity channels : UInt64} {floats : Nat} (hlayers : 0 < numLayers.toNat)
    (hcapacity : 0 < capacity.toNat) (hchannels : 0 < channels.toNat) (hlayer : capacity.toNat * channels.toNat < 2 ^ 64)
    (hfloats : floats = numLayers.toNat * (capacity.toNat * channels.toNat)) (hbig : 2 ^ 64 ≤ 8 * floats) :
    (KVCache.make numLayers capacity channels : Except Exc (KVCache α)) = .error (overflow (cacheOverflow floats)) := by
  have hzero : ¬(numLayers = 0 ∨ capacity = 0 ∨ channels = 0) := by
    simp only [eq_zero_iff]
    omega
  have hlayerCount := toNat_mul_of_lt hlayer
  have htwo : (2 : UInt64).toNat = 2 := rfl
  have hfour : (4 : UInt64).toNat = 4 := rfl
  unfold KVCache.make cacheOverflow
  rw [throwIf_of_not hzero, ok_bind, checkedMultiply_of_lt hlayer, ok_bind]
  by_cases h1 : 2 ^ 64 ≤ floats
  · rw [if_pos h1, checkedMultiply_of_ge (by rw [hlayerCount, ← hfloats]; exact h1)]
    rfl
  have htotal : (numLayers * (capacity * channels)).toNat = floats := by
    rw [toNat_mul_of_lt (by rw [hlayerCount, ← hfloats]; omega), hlayerCount, hfloats]
  rw [if_neg h1, checkedMultiply_of_lt (by rw [hlayerCount, ← hfloats]; omega), ok_bind]
  by_cases h2 : 2 ^ 64 ≤ 2 * floats
  · rw [if_pos h2, checkedMultiply_of_ge (by rw [htwo, htotal]; exact h2)]
    rfl
  have hcombined : (2 * (numLayers * (capacity * channels))).toNat = 2 * floats := by
    rw [toNat_mul_of_lt (by rw [htwo, htotal]; omega), htwo, htotal]
  rw [if_neg h2, checkedMultiply_of_lt (by rw [htwo, htotal]; omega), ok_bind,
    checkedMultiply_of_ge (by rw [hcombined, hfour]; omega)]
  rfl

variable [Scalar α]

/-- **What the constructor throws.** -/
theorem make_rejects {model : GPT2Model α} {capacity : UInt64} {e : Exc} (h : rejection model.weights.config capacity = some e) :
    make model capacity = .error e := by
  have hv := model.wellFormed.valid
  unfold rejection at h
  unfold make validateSessionCapacity
  by_cases hrange : capacity = 0 ∨ model.weights.config.maxSequenceLength < capacity
  · rw [if_pos hrange, Option.some.injEq] at h
    rw [throwIf_of hrange, ← h]
    rfl
  rw [if_neg hrange] at h
  by_cases hbig : 2 ^ 64 ≤ 8 * cacheFloats model.weights.config capacity
  · rw [if_pos hbig, Option.some.injEq] at h
    rw [eq_zero_iff, lt_iff] at hrange
    have hcontext := Nat.lt_of_le_of_lt (Nat.mul_le_mul_right model.weights.config.channels.toNat
      (show capacity.toNat ≤ model.weights.config.maxSequenceLength.toNat by omega)) model.wellFormed.sizes.context_lt
    simp only [throwIf_of_not (show ¬(capacity = 0 ∨ model.weights.config.maxSequenceLength < capacity) by
        rw [eq_zero_iff, lt_iff]; exact hrange), ok_bind, pure_ok,
      make_overflow hv.numLayers (show 0 < capacity.toNat by omega) hv.channels (by omega) rfl hbig, error_bind]
    rw [← h]
    rfl
  · rw [if_neg hbig] at h
    cases h

end InferenceSession

/-! ## The checkpoint -/

variable [Scalar α]

namespace Generate

open InferenceSession

def tokenRejection (options : Options) (config : ModelConfig) : Option Exc :=
  if ∀ t ∈ options.tokens, TokenValid config t then none
  else some (.invalidArgument "input token ID is outside the real vocabulary")

def rejection (host : Host (Executor α)) (options : Options) (config : ModelConfig) : Option Exc :=
  if config.maxSequenceLength.toNat < options.tokens.length + options.maxNewTokens.toNat then
    some (.invalidArgument "requested output exceeds the checkpoint context length")
  else
    match options.mode with
    | .full => tokenRejection options config
    | .cached =>
      if (options.request.sessionCapacity config).toNat < consumedCount options.request then
        some (.invalidArgument "session capacity is too small for requested computation")
      else
        match InferenceSession.rejection config (options.request.sessionCapacity config) with
        | some e => some e
        | none =>
          match refusal (makeExecutor host options.threads) with
          | some e => some e
          | none => tokenRejection options config

variable {files : Files} {host : Host (Executor α)} {options : Options} {model : GPT2Model α} {e : Exc}

theorem forward_rejects_token {tokens : List Int32} (hne : tokens ≠ []) (hle : tokens.length ≤ model.weights.config.maxSequenceLength.toNat)
    (hval : ¬∀ t ∈ tokens, TokenValid model.weights.config t) (workspace : InferenceWorkspace α) :
    model.forward tokens workspace =
      .error (.invalidArgument "input token ID is outside the real vocabulary", workspace) := by
  have hlen : ¬(tokens = [] ∨ model.weights.config.maxSequenceLength.toNat < tokens.length) := by
    rw [not_or, not_lt]
    exact ⟨hne, hle⟩
  have hcheck : validateTokens model.weights.config tokens =
      .error (.invalidArgument "input token ID is outside the real vocabulary") := by
    rw [validateTokens, throwIf_of_not hlen, ok_bind, forM_validateToken, throwIf_of hval]
  exact forward_of_rejected hcheck workspace

/-- Full mode runs the prompt first, generated tokens or not. -/
theorem generateFull_rejects {options : Gpt2Runtime.Options} {x : Exc × InferenceWorkspace α}
    (h : model.forward options.tokens .empty = .error x) : generateFull options model = .error x.1 := by
  unfold generateFull
  by_cases hcount : options.maxNewTokens = 0
  · simp [hcount, forSize, finalForward, h, thrown]
  · have hstep : fullStep model (UInt64.ofNat 0) ⟨options.tokens, [], .empty⟩ = .error x.1 := by simp [fullStep, h, thrown]
    rw [forSize, forN_error hstep (Word.pos_of_ne_zero hcount), error_bind]

theorem prefill_rejects_token {capacity : UInt64} {session : InferenceSession model} (h : session.Holds capacity [])
    {prompt : List Int32} (hne : prompt ≠ []) (hle : prompt.length ≤ capacity.toNat)
    (hval : ¬∀ t ∈ prompt, TokenValid model.weights.config t) (executor : Option (Executor α)) :
    session.prefill prompt executor = .error (.invalidArgument "input token ID is outside the real vocabulary", session) := by
  have hcheck : session.validatePrefill prompt = .error (.invalidArgument "input token ID is outside the real vocabulary") := by
    have hroom : ¬(model.machine capacity).capacity < prompt.length := Nat.not_lt.2 hle
    have hvocabulary : ¬∀ t ∈ prompt, InVocabulary (model.machine capacity).vocabulary t := hval
    rw [h.validatePrefill, TokenMachine.checkPrefill, throwIf_of_not (not_not.2 rfl), ok_bind, throwIf_of_not hne, ok_bind,
      throwIf_of_not hroom, ok_bind, throwIf_of hvocabulary]
  simp only [prefill, hcheck, keep_error, error_bind]

/-- **What a generation throws**, its context being checked. -/
theorem generateIn_rejects (h : Usable options) (hcontext : checkContext options.request model.weights.config = .ok ())
    (hreject : rejection host options model.weights.config = some e) : generateIn options model host = .error e := by
  have hfits := checkContext_request.1 hcontext
  unfold rejection at hreject
  rw [if_neg (Nat.not_lt.2 hfits)] at hreject
  have htoken : tokenRejection options model.weights.config = some e →
      (¬∀ t ∈ options.tokens, TokenValid model.weights.config t) ∧
        e = .invalidArgument "input token ID is outside the real vocabulary" := by
    intro htokens
    unfold tokenRejection at htokens
    split at htokens
    · cases htokens
    · next hval => exact ⟨hval, (Option.some.inj htokens).symm⟩
  unfold generateIn
  cases hmode : options.mode with
  | full =>
    simp only [hmode] at hreject
    obtain ⟨hval, rfl⟩ := htoken hreject
    have hforward : model.forward options.request.tokens .empty = .error (_, .empty) :=
      forward_rejects_token h.tokens (by omega) hval .empty
    exact generateFull_rejects hforward
  | cached =>
    simp only [hmode] at hreject
    have hguard : options.request.sessionCapacity model.weights.config < requiredCapacity options.request ↔
        (options.request.sessionCapacity model.weights.config).toNat < consumedCount options.request := by
      rw [lt_iff, requiredCapacity_toNat hcontext]
    unfold Gpt2Runtime.Options.sessionCapacity at hguard hreject
    by_cases hsmall : (options.request.capacity.getD model.weights.config.maxSequenceLength).toNat < consumedCount options.request
    · rw [if_pos hsmall, Option.some.injEq] at hreject
      simp only [generateCached, throwIf_of (hguard.2 hsmall), error_bind, hreject]
    rw [if_neg hsmall] at hreject
    simp only [generateCached, throwIf_of_not (mt hguard.1 hsmall), ok_bind]
    cases hsession : InferenceSession.rejection model.weights.config
        (options.request.capacity.getD model.weights.config.maxSequenceLength) with
    | some e' =>
      simp only [hsession, Option.some.injEq] at hreject
      rw [make_rejects (hsession.trans (congrArg some hreject)), error_bind]
    | none =>
      simp only [hsession] at hreject
      obtain ⟨session, hmake⟩ := (make_ok_iff model _).2 (rejection_eq_none_iff.1 hsession)
      rw [hmake, ok_bind]
      have hthreads : options.request.threads = options.threads := rfl
      cases hexecutor : makeExecutor host options.threads with
      | error e' =>
        simp only [hexecutor, refusal, Option.some.injEq] at hreject
        rw [hthreads, hexecutor, error_bind, hreject]
      | ok executor =>
        simp only [hexecutor, refusal] at hreject
        obtain ⟨hval, rfl⟩ := htoken hreject
        have hroom : options.request.tokens.length ≤
            (options.request.capacity.getD model.weights.config.maxSequenceLength).toNat := by
          unfold consumedCount at hsmall
          omega
        have hprefill : session.prefill options.request.tokens executor = .error (_, session) :=
          prefill_rejects_token (make_holds hmake).2 h.tokens hroom hval executor
        rw [hthreads, hexecutor, ok_bind, hprefill]
        rfl

omit [Scalar α] in
/-- A run none of whose checks fails. -/
theorem rejection_eq_none_iff (h : Usable options) {config : ModelConfig} : rejection host options config = none ↔
    (∀ t ∈ options.tokens, TokenValid config t) ∧
      options.tokens.length + options.maxNewTokens.toNat ≤ config.maxSequenceLength.toNat ∧
      (options.mode = .cached → consumedCount options.request ≤ (options.request.sessionCapacity config).toNat ∧
        CapacityFits config (options.request.sessionCapacity config) ∧ host.Grants options.threads) := by
  have htoken : tokenRejection options config = none ↔ ∀ t ∈ options.tokens, TokenValid config t := by
    unfold tokenRejection
    split <;> simp_all
  unfold rejection
  split
  · next hlong =>
    simp only [reduceCtorEq, false_iff]
    omega
  · next hfits =>
    rw [not_lt] at hfits
    cases hmode : options.mode with
    | full => simp [htoken, hfits]
    | cached =>
      simp only [true_implies, hfits, true_and]
      split
      · next hsmall =>
        simp only [reduceCtorEq, false_iff]
        omega
      · next hroom =>
        rw [not_lt] at hroom
        cases hsession : InferenceSession.rejection config (options.request.sessionCapacity config) with
        | none =>
          have hfits := InferenceSession.rejection_eq_none_iff.1 hsession
          cases hrefusal : refusal (makeExecutor host options.threads) with
          | none => simp [htoken, hroom, hfits, (grants_iff h.threads).2 (refusal_eq_none_iff.1 hrefusal)]
          | some e =>
            have hno : ¬host.Grants options.threads := by
              rw [grants_iff h.threads, ← refusal_eq_none_iff, hrefusal]
              simp
            simp [hno]
        | some e =>
          have hno : ¬CapacityFits config (options.request.sessionCapacity config) := by
            rw [← InferenceSession.rejection_eq_none_iff, hsession]
            simp
          simp [hno]

/-- **A run of the generator**: the first check that fails, or the expected output. -/
theorem generate_eq (hserves : host.Serves) (h : Usable options)
    (hload : loadModel files options.checkpoint = .ok model) : generate files host options =
      match rejection host options model.weights.config with
      | some e => .error e
      | none =>
        if options.dumpLastLogits ≠ "" ∧ files.writable options.dumpLastLogits = false then
          .error (.runtimeError ("cannot open logits output: " ++ options.dumpLastLogits))
        else .ok (expected options model) := by
  cases hreject : rejection host options model.weights.config with
  | some e =>
    simp only [generate, hload, ok_bind]
    by_cases hcontext : checkContext options.request model.weights.config = .ok ()
    · rw [hcontext, ok_bind, generateIn_rejects h hcontext hreject, error_bind]
    · have hlong := mt checkContext_request.2 hcontext
      rw [rejection, if_pos (Nat.not_le.1 hlong), Option.some.injEq] at hreject
      cases hcheck : checkContext options.request model.weights.config with
      | ok u => exact absurd hcheck hcontext
      | error e' => rw [throwIf_error hcheck, hreject, error_bind]
  | none =>
    obtain ⟨hval, hcontext, hcapacity⟩ := (rejection_eq_none_iff h).1 hreject
    have hcheck := checkContext_request.2 hcontext
    have hgenerate := (generateIn_ok_iff hserves h hcheck).2 ⟨hval, hcapacity, rfl⟩
    simp only [generate, hload, hcheck, hgenerate, ok_bind]
    split
    · next hunwritable =>
      cases hdump : dumped options model with
      | none => exact absurd (dumped_eq_none_iff.1 hdump) hunwritable.1
      | some values => simp only [expected, hdump, openDump, throwIf_of hunwritable.2, error_bind]
    · next hwritable =>
      rw [show openDump files options.dumpLastLogits (expected options model).dump = .ok () from
        (openDump_ok_iff dumped_eq_none_iff).2 fun hne => by simpa [hne] using hwritable]
      rfl

/-! ## Whole command lines -/

/-- What `main` reports: of the arguments, of the checkpoint, of the first check of the run, of the file for the dump. -/
inductive Fails (files : Files) (host : Host (Executor α)) (arguments : List String) : Exc → Prop
  | arguments {e : Exc} (hparse : parseOptions arguments = .error e) : Fails files host arguments e
  | checkpoint {options : Options} {e : Exc} (hparse : parseOptions arguments = .ok (some options))
      (hload : (loadModel files options.checkpoint : Except Exc (GPT2Model α)) = .error e) : Fails files host arguments e
  | run {options : Options} {model : GPT2Model α} {e : Exc} (hparse : parseOptions arguments = .ok (some options))
      (hload : loadModel files options.checkpoint = .ok model) (hreject : rejection host options model.weights.config = some e) :
      Fails files host arguments e
  | dump {options : Options} {model : GPT2Model α} (hparse : parseOptions arguments = .ok (some options))
      (hload : loadModel files options.checkpoint = .ok model) (hruns : rejection host options model.weights.config = none)
      (hdump : options.dumpLastLogits ≠ "") (hwritable : files.writable options.dumpLastLogits = false) :
      Fails files host arguments (.runtimeError ("cannot open logits output: " ++ options.dumpLastLogits))

end Generate

end Gpt2Runtime
