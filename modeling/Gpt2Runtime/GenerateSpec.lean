import Gpt2Runtime.Generate
/-
# Full and cached greedy generation agree

Both loops compute `greedy`: the prompt, then each next token the position of the largest logit of the
list so far. Full mode recomputes the list at every step. Cached mode consumes a token one step after
choosing it and never consumes the last one unless a dump asks for it: before step `i` of `G` the session
stands for the list of step `min i (G - 1)`.
-/

namespace Gpt2Runtime

open Loop Flat Word InferenceSession

variable {α : Type} [Scalar α]

/-! ## The greedy token -/

theorem maxElementFrom_lt {n : Nat} : ∀ {xs : List α} {best i : Nat} {largest : α}, best < n → i + xs.length ≤ n →
    maxElementFrom best largest i xs < n
  | [], _, _, _, hbest, _ => hbest
  | x :: xs, best, i, largest, hbest, hle => by
    rw [List.length_cons] at hle
    rw [maxElementFrom]
    by_cases h : Scalar.lt largest x = true
    · rw [if_pos h]
      exact maxElementFrom_lt (by omega) (by omega)
    · rw [if_neg h]
      exact maxElementFrom_lt hbest (by omega)

theorem maxElement_lt {l : List α} (h : l ≠ []) : maxElement l < l.length := by
  cases l with
  | nil => exact absurd rfl h
  | cons x xs => exact maxElementFrom_lt (by simp) (by simp [Nat.add_comm])

theorem greedyToken_valid {config : ModelConfig} {logits : List α} (hlen : logits.length = config.vocabularySize.toNat)
    (hpos : 0 < config.vocabularySize.toNat) (hlt : config.vocabularySize.toNat < 2 ^ 31) :
    TokenValid config (greedyToken logits) := by
  have hmax : maxElement logits < config.vocabularySize.toNat := by
    rw [← hlen]
    refine maxElement_lt fun h0 => ?_
    rw [h0, List.length_nil] at hlen
    omega
  have hint : (greedyToken logits).toInt = maxElement logits := Int32.toInt_ofNat_of_lt (by omega)
  refine ⟨by rw [hint]; exact Int.natCast_nonneg _, ?_⟩
  rw [tokenId, hint, Int.toNat_natCast]
  exact hmax

/-! ## What both modes compute -/

/-- The tokens after `i` steps. -/
def greedy (logits : List Int32 → List α) (prompt : List Int32) : Nat → List Int32
  | 0 => prompt
  | i + 1 => greedy logits prompt i ++ [greedyToken (logits (greedy logits prompt i))]

/-- The lines of the first `i` steps. -/
def greedyLines (logits : List Int32 → List α) (prompt : List Int32) : Nat → List StepLine
  | 0 => []
  | i + 1 => greedyLines logits prompt i ++
      [⟨UInt64.ofNat (i + 1), UInt64.ofNat (prompt.length + i), greedyToken (logits (greedy logits prompt i))⟩]

theorem greedy_succ (logits : List Int32 → List α) (prompt : List Int32) (i : Nat) :
    greedy logits prompt (i + 1) = greedy logits prompt i ++ [greedyToken (logits (greedy logits prompt i))] := rfl

@[simp] theorem length_greedy (logits : List Int32 → List α) (prompt : List Int32) (i : Nat) :
    (greedy logits prompt i).length = prompt.length + i := by
  induction i with
  | zero => rfl
  | succ i ih => rw [greedy_succ, List.length_append, ih, List.length_singleton, Nat.add_assoc]

/-- The line either mode prints in step `i`. -/
theorem stepLine_eq (logits : List Int32 → List α) (prompt : List Int32) (i : Nat) (next : Int32) :
    (⟨UInt64.ofNat i + 1, UInt64.ofNat (greedy logits prompt i ++ [next]).length - 1, next⟩ : StepLine) =
      ⟨UInt64.ofNat (i + 1), UInt64.ofNat (prompt.length + i), next⟩ := by
  have hstep : UInt64.ofNat (i + 1) = UInt64.ofNat i + 1 := UInt64.ofNat_add i 1
  have hlen : UInt64.ofNat (prompt.length + i + 1) = UInt64.ofNat (prompt.length + i) + 1 := UInt64.ofNat_add _ 1
  rw [List.length_append, List.length_singleton, length_greedy, hstep, hlen, UInt64.add_sub_cancel]

/-- The logits of a list of consumed tokens, as a session returns them. -/
abbrev GPT2Model.logits (model : GPT2Model α) (P : List Int32) : List α :=
  (model.machine model.weights.config.maxSequenceLength).logits P

theorem greedyToken_logits_valid (model : GPT2Model α) (P : List Int32) :
    TokenValid model.weights.config (greedyToken (model.logits P)) := by
  have hw := model.wellFormed
  refine greedyToken_valid ?_ hw.valid.vocabularySize (Nat.lt_of_le_of_lt hw.valid.padded_ge hw.vocabulary_lt)
  rw [GPT2Model.logits, GPT2Model.machine, List.length_map, List.length_range]

/-- Valid prompts stay valid. -/
theorem greedy_valid {model : GPT2Model α} {prompt : List Int32} (h : ∀ t ∈ prompt, TokenValid model.weights.config t)
    (i : Nat) : ∀ t ∈ greedy model.logits prompt i, TokenValid model.weights.config t := by
  induction i with
  | zero => exact h
  | succ i ih =>
    intro t ht
    rw [greedy_succ] at ht
    rcases List.mem_append.1 ht with ht | ht
    · exact ih t ht
    · rw [List.mem_singleton.1 ht]
      exact greedyToken_logits_valid model _

theorem greedy_accepted {model : GPT2Model α} {prompt : List Int32} (hne : prompt ≠ [])
    (h : ∀ t ∈ prompt, TokenValid model.weights.config t) {i : Nat}
    (hle : prompt.length + i ≤ model.weights.config.maxSequenceLength.toNat) :
    Accepted model.weights.config (greedy model.logits prompt i) := by
  refine ⟨?_, by rw [length_greedy]; exact hle, greedy_valid h i⟩
  have := List.length_pos_iff.2 hne
  rw [← List.length_pos_iff, length_greedy]
  omega

omit [Scalar α] in
theorem dumpBinary_ok {values : List α} (h : values.length < 2 ^ 31) : dumpBinary values = .ok values := by
  have h4 : (UInt64.ofNat values.length * 4).toNat = values.length * 4 :=
    toNat_mul_eq (toNat_ofNat_of_lt (by omega)) rfl (by omega)
  simp only [dumpBinary, h4, throwIf_of_not (show ¬2 ^ 63 - 1 < values.length * 4 by omega), ok_bind, pure_ok]

theorem checkContext_ok_iff {options : Options} {config : ModelConfig} :
    checkContext options config = .ok () ↔
      options.tokens.length + options.maxNewTokens.toNat ≤ config.maxSequenceLength.toNat := by
  have hT := toNat_lt config.maxSequenceLength
  rw [checkContext, throwIf_ok_iff, not_or, not_lt, lt_iff, not_lt]
  by_cases hn : options.tokens.length ≤ config.maxSequenceLength.toNat
  · have hlen : (UInt64.ofNat options.tokens.length).toNat = options.tokens.length := toNat_ofNat_of_lt (by omega)
    rw [UInt64.toNat_sub_of_le _ _ (by rw [le_iff, hlen]; exact hn), hlen]
    omega
  · constructor
    · exact fun h => absurd h.1 hn
    · omega

/-! ## Full mode -/

section Full

variable {model : GPT2Model α} {options : Options}

theorem fullStep_ok {P : List Int32} (h : Accepted model.weights.config P) (step : UInt64) (steps : List StepLine)
    (workspace : InferenceWorkspace α) :
    ∃ ws, fullStep model step ⟨P, steps, workspace⟩ = .ok ⟨P ++ [greedyToken (model.logits P)],
      steps ++ [⟨step + 1, UInt64.ofNat (P ++ [greedyToken (model.logits P)]).length - 1, greedyToken (model.logits P)⟩],
      ws⟩ := by
  obtain ⟨ws, hws, hlogits⟩ := machine_logits model model.weights.config.maxSequenceLength h workspace
  refine ⟨ws, ?_⟩
  simp only [fullStep, hws, thrown, hlogits, ok_bind, pure_ok]

/-- The loop of full mode. -/
theorem fullSteps_ok {prompt : List Int32} (hne : prompt ≠ []) (hval : ∀ t ∈ prompt, TokenValid model.weights.config t)
    {G : Nat} (hle : prompt.length + G ≤ model.weights.config.maxSequenceLength.toNat) :
    ∃ ws, forSize G ⟨prompt, [], .empty⟩ (fun step s => fullStep model step s) =
      .ok ⟨greedy model.logits prompt G, greedyLines model.logits prompt G, ws⟩ := by
  have hstep : ∀ i (s : FullState α), i < G →
      s.tokens = greedy model.logits prompt i ∧ s.steps = greedyLines model.logits prompt i →
      ∃ s', fullStep model (UInt64.ofNat i) s = .ok s' ∧
        s'.tokens = greedy model.logits prompt (i + 1) ∧ s'.steps = greedyLines model.logits prompt (i + 1) := by
    rintro i ⟨tokens, steps, ws⟩ hi ⟨rfl, rfl⟩
    have hacc := greedy_accepted hne hval (show prompt.length + i ≤ _ by omega)
    obtain ⟨ws', hok⟩ := fullStep_ok hacc (UInt64.ofNat i) (greedyLines model.logits prompt i) ws
    rw [stepLine_eq] at hok
    exact ⟨_, hok, rfl, rfl⟩
  obtain ⟨⟨tokens, steps, ws⟩, hok, rfl, rfl⟩ := forN_spec (s := ⟨prompt, [], .empty⟩)
    (I := fun i (s : FullState α) => s.tokens = greedy model.logits prompt i ∧ s.steps = greedyLines model.logits prompt i)
    ⟨rfl, rfl⟩ hstep
  exact ⟨ws, hok⟩

/-- **Full mode on a valid prompt.** -/
theorem generateFull_ok (hne : options.tokens ≠ []) (hcontext : checkContext options model.weights.config = .ok ())
    (hval : ∀ t ∈ options.tokens, TokenValid model.weights.config t) :
    ∃ row, row.take model.weights.config.vocabularySize.toNat =
        model.logits (greedy model.logits options.tokens options.maxNewTokens.toNat) ∧
      generateFull options model = .ok
        { tokens := greedy model.logits options.tokens options.maxNewTokens.toNat
          steps := greedyLines model.logits options.tokens options.maxNewTokens.toNat
          dump := if options.dumpLastLogits = true then some row else none } := by
  have hle := checkContext_ok_iff.1 hcontext
  have hw := model.wellFormed
  obtain ⟨ws, hloop⟩ := fullSteps_ok hne hval hle
  obtain ⟨ws', hws', hlogits⟩ := machine_logits model model.weights.config.maxSequenceLength
    (greedy_accepted hne hval hle) ws
  -- the row a dump writes starts with the real logits
  obtain ⟨row, hrow, hfirst⟩ := bind_eq_ok.1 hlogits
  have hrowlen : row.length < 2 ^ 31 := by
    unfold last at hrow
    split at hrow
    · next hlast =>
      rw [Except.ok.injEq] at hrow
      rw [← hrow, List.length_drop]
      have := hw.vocabulary_lt
      omega
    · simp at hrow
  have htake : row.take model.weights.config.vocabularySize.toNat =
      model.logits (greedy model.logits options.tokens options.maxNewTokens.toNat) := by
    unfold first at hfirst
    split at hfirst
    · exact Except.ok.inj hfirst
    · simp at hfirst
  refine ⟨row, htake, ?_⟩
  by_cases hdump : options.dumpLastLogits = true
  · simp only [generateFull, hloop, finalForward, hdump, or_true, if_true, hws', thrown, dumpFull, hrow,
      dumpBinary_ok hrowlen, ok_bind, pure_ok]
  · obtain ⟨ws'', hfinal⟩ : ∃ ws'', finalForward options model
        ⟨greedy model.logits options.tokens options.maxNewTokens.toNat,
          greedyLines model.logits options.tokens options.maxNewTokens.toNat, ws⟩ = .ok ws'' := by
      unfold finalForward
      split
      · exact ⟨ws', by rw [hws', thrown]⟩
      · exact ⟨ws, rfl⟩
    simp only [generateFull, hloop, hfinal, dumpFull, hdump, Bool.false_eq_true, if_false, ok_bind, pure_ok]

/-- Whether or not a token is asked for, full mode runs the prompt through `forward`. -/
theorem generateFull_runs_prompt {out : Output α} (h : generateFull options model = .ok out) :
    ∃ ws, model.forward options.tokens .empty = .ok ws := by
  cases hfwd : model.forward options.tokens .empty with
  | ok ws => exact ⟨ws, rfl⟩
  | error x =>
    unfold generateFull at h
    by_cases hG : options.maxNewTokens = 0
    · simp [hG, forSize, finalForward, hfwd, thrown] at h
    · have hstep : fullStep model (UInt64.ofNat 0) ⟨options.tokens, [], .empty⟩ = .error x.1 := by
        simp [fullStep, hfwd, thrown]
      rw [forSize, forN_error hstep (Word.pos_of_ne_zero hG)] at h
      simp at h

/-- **Full mode completes exactly on valid prompts.** -/
theorem generateFull_ok_iff (hne : options.tokens ≠ [])
    (hcontext : checkContext options model.weights.config = .ok ()) :
    (∃ out, generateFull options model = .ok out) ↔ ∀ t ∈ options.tokens, TokenValid model.weights.config t := by
  constructor
  · rintro ⟨out, hout⟩
    exact ((forward_ok_iff model _ _).1 (generateFull_runs_prompt hout)).valid
  · intro hval
    obtain ⟨row, -, hok⟩ := generateFull_ok hne hcontext hval
    exact ⟨_, hok⟩

end Full

/-! ## The executor -/

section Executor

variable {E : Type} {host : Host E} {threads : UInt64}

/-- The host constructs an executor of so many threads; for one thread none is asked for. -/
def Host.Grants (host : Host E) (threads : UInt64) : Prop :=
  threads ≠ 1 → host.reserve (threads - 1) = .ok () ∧ ∃ executor, host.start threads = .ok executor

theorem Host.grants_granting (start : UInt64 → E) (threads : UInt64) : (Host.granting start).Grants threads :=
  fun _ => ⟨rfl, _, rfl⟩

/-- An executor that is made is one the host started. -/
theorem start_of_makeExecutor {executor : E} (h : makeExecutor host threads = .ok (some executor)) :
    threads ≠ 0 ∧ host.start threads = .ok executor := by
  unfold makeExecutor constructExecutor at h
  split at h
  · cases h
  · obtain ⟨executor', hconstruct, h⟩ := bind_eq_ok.1 h
    obtain rfl := Option.some.inj (Except.ok.inj h)
    obtain ⟨hthreads, hconstruct⟩ := throwIf_bind_ok.1 hconstruct
    obtain ⟨-, -, hstart⟩ := bind_eq_ok.1 hconstruct
    exact ⟨hthreads, hstart⟩

theorem grants_iff (hthreads : threads ≠ 0) : host.Grants threads ↔ ∃ executor, makeExecutor host threads = .ok executor := by
  unfold Host.Grants makeExecutor constructExecutor
  by_cases h1 : threads = 1
  · simp [h1]
  · simp only [ne_eq, h1, not_false_eq_true, true_implies, if_false, throwIf_of_not hthreads, ok_bind]
    constructor
    · rintro ⟨hreserve, executor, hstart⟩
      exact ⟨some executor, by simp only [hreserve, hstart, ok_bind, pure_ok]⟩
    · rintro ⟨executor, hmake⟩
      obtain ⟨executor', hconstruct, -⟩ := bind_eq_ok.1 hmake
      obtain ⟨⟨⟩, hreserve, hstart⟩ := bind_eq_ok.1 hconstruct
      exact ⟨hreserve, executor', hstart⟩

/-- Every executor the host starts is faithful. -/
def Host.Serves (host : Host (Executor α)) : Prop :=
  ∀ (threads : UInt64) (executor : Executor α), threads ≠ 0 → host.start threads = .ok executor → Faithful (some executor)

/-- The executor of a run on such a host, if there is one. -/
theorem Host.Serves.faithful {host : Host (Executor α)} (h : host.Serves) {executor : Option (Executor α)}
    (hmake : makeExecutor host threads = .ok executor) : Faithful executor := by
  cases executor with
  | none => exact fun _ _ _ hout => hout
  | some executor =>
    obtain ⟨hthreads, hstart⟩ := start_of_makeExecutor hmake
    exact h threads executor hthreads hstart

theorem serves_faulting : (Host.granting fun _ => (faulting fun _ => none : Executor α)).Serves := by
  rintro threads executor - hstart
  cases hstart
  exact fun _ _ _ hout => hout

end Executor

/-! ## Cached mode -/

namespace InferenceSession

variable {model : GPT2Model α} {capacity : UInt64} {s : InferenceSession model}

/-- A prefill that passes its checks, through a faithful executor. -/
theorem Holds.prefill_ok (h : s.Holds capacity []) {prompt : List Int32} (hne : prompt ≠ [])
    (hle : prompt.length ≤ capacity.toNat) (hval : ∀ t ∈ prompt, TokenValid model.weights.config t)
    {executor : Option (Executor α)} (hf : Faithful executor) :
    ∃ s', s.prefill prompt executor = .ok s' ∧ s'.Holds capacity prompt ∧ s'.logits = model.logits prompt := by
  have hcheck : (model.machine capacity).checkPrefill [] prompt = .ok () :=
    TokenMachine.checkPrefill_ok_iff.2 ⟨rfl, hne, hle, hval⟩
  have hreq : (Call.prefill prompt executor).Makes (.prefill prompt fun _ => none) := .prefill hf.follows
  obtain ⟨hout, hholds⟩ := step_refines h hreq
  simp only [TokenMachine.step, hcheck, plan_tokens_none, ok_bind, TokenMachine.commit] at hout hholds
  obtain ⟨s', hs'⟩ := prefill_ok_of_step hout
  rw [step_prefill_ok hs', Except.ok.injEq] at hout
  simp only [step, hs'] at hholds
  exact ⟨s', hs', hholds, hout⟩

theorem Holds.decode_ok {P : List Int32} (h : s.Holds capacity P) (hne : P ≠ []) (hlt : P.length < capacity.toNat)
    {token : Int32} (hval : TokenValid model.weights.config token) {executor : Option (Executor α)}
    (hf : Faithful executor) :
    ∃ s', s.decode token executor = .ok s' ∧ s'.Holds capacity (P ++ [token]) ∧
      s'.logits = model.logits (P ++ [token]) := by
  have hcheck : (model.machine capacity).checkDecode P token = .ok () :=
    TokenMachine.checkDecode_ok_iff.2 ⟨hne, hval, Nat.ne_of_lt hlt⟩
  have hreq : (Call.decode token executor).Makes (.decode token fun _ => none) := .decode hf.follows
  obtain ⟨hout, hholds⟩ := step_refines h hreq
  simp only [TokenMachine.step, hcheck, plan_token_none, ok_bind, TokenMachine.commit] at hout hholds
  obtain ⟨s', hs'⟩ := decode_ok_of_step hout
  rw [step_decode_ok hs', Except.ok.injEq] at hout
  simp only [step, hs'] at hholds
  exact ⟨s', hs', hholds, hout⟩

end InferenceSession

section Cached

variable {model : GPT2Model α} {options : Options} {capacity : UInt64} {executor : Option (Executor α)}

/-- The state before step `i` of `G`. -/
structure CachedState.Before (capacity : UInt64) (prompt : List Int32) (G i : Nat) (s : CachedState model) : Prop where
  tokens : s.tokens = greedy model.logits prompt i
  steps : s.steps = greedyLines model.logits prompt i
  holds : s.session.Holds capacity (greedy model.logits prompt (min i (G - 1)))
  logits : s.session.logits = model.logits (greedy model.logits prompt (min i (G - 1)))
  finalGenerated : ∀ token, s.finalGenerated = some token →
    0 < i ∧ token = greedyToken (model.logits (greedy model.logits prompt (i - 1)))
  finalGenerated_none : s.finalGenerated = none → i = 0

theorem greedy_ne_nil {prompt : List Int32} (hne : prompt ≠ []) (i : Nat) : greedy model.logits prompt i ≠ [] := by
  have := List.length_pos_iff.2 hne
  rw [← List.length_pos_iff, length_greedy]
  omega

/-- **The decode of step `i` of `G`**: every chosen token but the last is consumed. -/
theorem decodeStep_ok (hf : Faithful executor) {prompt : List Int32} (hne : prompt ≠ []) {G : UInt64} {i : Nat}
    {session : InferenceSession model} (hholds : session.Holds capacity (greedy model.logits prompt (min i (G.toNat - 1))))
    (hlogits : session.logits = model.logits (greedy model.logits prompt (min i (G.toNat - 1)))) (hi : i < G.toNat)
    (hroom : prompt.length + (G.toNat - 1) ≤ capacity.toNat) :
    ∃ session', (if UInt64.ofNat i + 1 < G then thrown (session.decode (greedyToken session.logits) executor)
        else .ok session) = .ok session' ∧
      session'.Holds capacity (greedy model.logits prompt (min (i + 1) (G.toNat - 1))) ∧
      session'.logits = model.logits (greedy model.logits prompt (min (i + 1) (G.toNat - 1))) ∧
      greedyToken session.logits = greedyToken (model.logits (greedy model.logits prompt i)) := by
  have hG := toNat_lt G
  have hsucc : (UInt64.ofNat i + 1).toNat = i + 1 := toNat_add_eq (toNat_ofNat_of_lt (by omega)) rfl (by omega)
  rw [show min i (G.toNat - 1) = i by omega] at hholds hlogits
  have hnext : greedyToken session.logits = greedyToken (model.logits (greedy model.logits prompt i)) := by rw [hlogits]
  by_cases hlast : i + 1 < G.toNat
  · have hlen := length_greedy model.logits prompt i
    obtain ⟨session', hok, hh, hl⟩ := hholds.decode_ok (greedy_ne_nil hne i) (by omega)
      (greedyToken_logits_valid model (greedy model.logits prompt i)) hf
    rw [if_pos (lt_iff.2 (by rw [hsucc]; exact hlast)), show min (i + 1) (G.toNat - 1) = i + 1 by omega, hnext, hok, greedy_succ]
    exact ⟨session', rfl, hh, hl, rfl⟩
  · rw [if_neg (by rw [lt_iff, hsucc]; exact hlast), show min (i + 1) (G.toNat - 1) = i by omega]
    exact ⟨session, rfl, hholds, hlogits, hnext⟩

/-- **One step of cached mode.** -/
theorem cachedStep_ok (hf : Faithful executor) {prompt : List Int32} (hne : prompt ≠ []) {i : Nat}
    {s : CachedState model} (hs : s.Before capacity prompt options.maxNewTokens.toNat i)
    (hi : i < options.maxNewTokens.toNat)
    (hroom : prompt.length + (options.maxNewTokens.toNat - 1) ≤ capacity.toNat) :
    ∃ s', cachedStep options executor (UInt64.ofNat i) s = .ok s' ∧
      s'.Before capacity prompt options.maxNewTokens.toNat (i + 1) := by
  obtain ⟨htokens, hsteps, hholds, hlogits, -, -⟩ := hs
  obtain ⟨session, hsession, hholds', hlogits', hnext⟩ := decodeStep_ok hf hne hholds hlogits hi hroom
  refine ⟨_, by simp only [cachedStep, decodeNext, hsession, ok_bind, pure_ok]; rfl, ?_, ?_, hholds', hlogits', ?_, ?_⟩
  · rw [htokens, hnext, greedy_succ]
  · rw [htokens, hsteps, stepLine_eq, greedyLines, hnext]
  · rintro token ⟨⟩
    exact ⟨Nat.succ_pos i, hnext⟩
  · rintro ⟨⟩

/-- The loop of cached mode. -/
theorem cachedSteps_ok (hf : Faithful executor) {prompt : List Int32} (hne : prompt ≠ [])
    {session : InferenceSession model} (hholds : session.Holds capacity prompt)
    (hlogits : session.logits = model.logits prompt)
    (hroom : prompt.length + (options.maxNewTokens.toNat - 1) ≤ capacity.toNat) :
    ∃ s, forSize options.maxNewTokens.toNat ⟨prompt, [], session, none⟩ (fun step s => cachedStep options executor step s) =
        .ok s ∧ s.Before capacity prompt options.maxNewTokens.toNat options.maxNewTokens.toNat := by
  refine forN_spec (I := fun i (s : CachedState model) => s.Before capacity prompt options.maxNewTokens.toNat i)
    ⟨rfl, rfl, ?_, ?_, (fun token h => nomatch h), fun _ => rfl⟩ fun i s hi hs => cachedStep_ok hf hne hs hi hroom
  · rw [Nat.zero_min]; exact hholds
  · rw [Nat.zero_min]; exact hlogits

/-- The dump consumes the last generated token, if there is one. -/
theorem decodeFinal_ok (hf : Faithful executor) {prompt : List Int32} (hne : prompt ≠ []) {G : Nat}
    {s : CachedState model} (hs : s.Before capacity prompt G G) (hroom : 0 < G → prompt.length + G ≤ capacity.toNat) :
    ∃ session, decodeFinal executor s = .ok session ∧ session.logits = model.logits (greedy model.logits prompt G) := by
  obtain ⟨-, -, hholds, hlogits, hsome, hnone⟩ := hs
  unfold decodeFinal
  cases hfinal : s.finalGenerated with
  | none =>
    have hG := hnone hfinal
    subst hG
    exact ⟨s.session, rfl, hlogits⟩
  | some token =>
    obtain ⟨hpos, htoken⟩ := hsome token hfinal
    obtain ⟨g, rfl⟩ : ∃ g, G = g + 1 := ⟨G - 1, by omega⟩
    rw [show min (g + 1) (g + 1 - 1) = g by omega] at hholds
    have hlen := length_greedy model.logits prompt g
    have hroom' := hroom hpos
    have htokenValid : TokenValid model.weights.config token := by
      rw [htoken]
      exact greedyToken_logits_valid model _
    obtain ⟨session, hok, -, hl⟩ := hholds.decode_ok (greedy_ne_nil hne g) (by omega) htokenValid hf
    refine ⟨session, by simp only [hok, thrown], ?_⟩
    rw [hl, htoken]
    rfl

/-- The tokens the session consumes, over the natural numbers. -/
def consumedCount (options : Options) : Nat :=
  options.tokens.length + (options.maxNewTokens.toNat - 1) +
    if options.dumpLastLogits = true ∧ 0 < options.maxNewTokens.toNat then 1 else 0

def Options.sessionCapacity (options : Options) (config : ModelConfig) : UInt64 :=
  options.capacity.getD config.maxSequenceLength

theorem requiredCapacity_toNat (hcontext : checkContext options model.weights.config = .ok ()) :
    (requiredCapacity options).toNat = consumedCount options := by
  have hle := checkContext_ok_iff.1 hcontext
  have hT := model.wellFormed.length_lt
  have hn : (UInt64.ofNat options.tokens.length).toNat = options.tokens.length := toNat_ofNat_of_lt (by omega)
  have hgenerated : (if options.maxNewTokens = 0 then 0 else options.maxNewTokens - 1).toNat =
      options.maxNewTokens.toNat - 1 := by
    by_cases hG : options.maxNewTokens = 0
    · simp [hG]
    · have hpos := Word.pos_of_ne_zero hG
      rw [if_neg hG, UInt64.toNat_sub_of_le _ _ (by rw [le_iff]; exact hpos)]
      rfl
  have hdump : (if options.dumpLastLogits = true ∧ options.maxNewTokens ≠ 0 then (1 : UInt64) else 0).toNat =
      if options.dumpLastLogits = true ∧ 0 < options.maxNewTokens.toNat then 1 else 0 := by
    simp only [ne_eq, eq_zero_iff, Nat.pos_iff_ne_zero]
    split <;> rfl
  have hone : (if options.dumpLastLogits = true ∧ 0 < options.maxNewTokens.toNat then 1 else 0) ≤ 1 := by
    split <;> omega
  have hsum := toNat_add_eq hn hgenerated (by omega)
  exact toNat_add_eq hsum hdump (by omega)

/-- **Cached mode** on a valid prompt with room for the tokens it consumes. -/
theorem generateCached_ok {host : Host (Executor α)} (hne : options.tokens ≠ [])
    (hcontext : checkContext options model.weights.config = .ok ()) (hthreads : options.threads ≠ 0)
    (hserves : host.Serves) (hgrants : host.Grants options.threads)
    (hval : ∀ t ∈ options.tokens, TokenValid model.weights.config t)
    (hroom : consumedCount options ≤ (options.sessionCapacity model.weights.config).toNat)
    (hfits : CapacityFits model.weights.config (options.sessionCapacity model.weights.config)) :
    generateCached options model host = .ok
      { tokens := greedy model.logits options.tokens options.maxNewTokens.toNat
        steps := greedyLines model.logits options.tokens options.maxNewTokens.toNat
        dump := if options.dumpLastLogits = true then
          some (model.logits (greedy model.logits options.tokens options.maxNewTokens.toNat)) else none } := by
  have hw := model.wellFormed
  have hguard : ¬options.sessionCapacity model.weights.config < requiredCapacity options := by
    rw [lt_iff, requiredCapacity_toNat hcontext]; omega
  have hconsumed := hroom
  unfold consumedCount at hconsumed
  obtain ⟨session, hmake⟩ := (make_ok_iff model _).2 hfits
  obtain ⟨executor, hexecutor⟩ := (grants_iff hthreads).1 hgrants
  have hf := hserves.faithful hexecutor
  obtain ⟨session', hprefill, hholds, hlogits⟩ := (make_holds hmake).2.prefill_ok hne (by omega) hval hf
  obtain ⟨s, hloop, hs⟩ := cachedSteps_ok hf hne hholds hlogits
    (show options.tokens.length + (options.maxNewTokens.toNat - 1) ≤ _ by omega)
  unfold Options.sessionCapacity at hguard hmake
  by_cases hdump : options.dumpLastLogits = true
  · rw [hdump] at hconsumed
    obtain ⟨session'', hfinal, hrow⟩ := decodeFinal_ok hf hne hs (by
      intro hG
      rw [if_pos ⟨rfl, hG⟩] at hconsumed
      omega)
    have hlen : (model.logits (greedy model.logits options.tokens options.maxNewTokens.toNat)).length < 2 ^ 31 := by
      rw [GPT2Model.logits, GPT2Model.machine, List.length_map, List.length_range]
      exact Nat.lt_of_le_of_lt hw.valid.padded_ge hw.vocabulary_lt
    simp only [generateCached, throwIf_of_not hguard, hmake, hexecutor, hprefill, thrown, hloop, dumpCached, hdump, if_true,
      hfinal, hrow, dumpBinary_ok hlen, ok_bind, pure_ok, hs.tokens, hs.steps]
  · simp only [generateCached, throwIf_of_not hguard, hmake, hexecutor, hprefill, thrown, hloop, dumpCached, hdump,
      Bool.false_eq_true, if_false, ok_bind, pure_ok, hs.tokens, hs.steps]

/-- **Cached mode completes exactly** on a valid prompt, with a capacity the session accepts that is
large enough, if its executor can be constructed. -/
theorem generateCached_ok_iff {host : Host (Executor α)} (hne : options.tokens ≠ [])
    (hcontext : checkContext options model.weights.config = .ok ()) (hthreads : options.threads ≠ 0)
    (hserves : host.Serves) :
    (∃ out, generateCached options model host = .ok out) ↔
      (∀ t ∈ options.tokens, TokenValid model.weights.config t) ∧
        consumedCount options ≤ (options.sessionCapacity model.weights.config).toNat ∧
        CapacityFits model.weights.config (options.sessionCapacity model.weights.config) ∧ host.Grants options.threads := by
  constructor
  · rintro ⟨out, hout⟩
    unfold generateCached at hout
    obtain ⟨hguard, hout⟩ := throwIf_bind_ok.1 hout
    obtain ⟨session, hmake, hout⟩ := bind_eq_ok.1 hout
    obtain ⟨executor, hexecutor, hout⟩ := bind_eq_ok.1 hout
    obtain ⟨session', hprefill, -⟩ := bind_eq_ok.1 hout
    obtain ⟨hfits, hholds⟩ := make_holds hmake
    have hf := hserves.faithful hexecutor
    rw [lt_iff, requiredCapacity_toNat hcontext, not_lt] at hguard
    refine ⟨?_, hguard, hfits, (grants_iff hthreads).2 ⟨executor, hexecutor⟩⟩
    -- the prefill checked the prompt
    cases hp : session.prefill options.tokens executor with
    | error x => simp [hp, thrown] at hprefill
    | ok s' =>
      have hcheck := (hholds.prefill_returns_iff options.tokens hf).1 ⟨s', hp⟩
      exact (TokenMachine.checkPrefill_ok_iff.1 hcheck).2.2.2
  · rintro ⟨hval, hroom, hfits, hgrants⟩
    exact ⟨_, generateCached_ok hne hcontext hthreads hserves hgrants hval hroom hfits⟩

end Cached

/-! ## Agreement -/

/-- **Both modes agree.** Full mode completes exactly on the valid prompts, cached mode exactly when also
the session's capacity is in range, its cache does not overflow `size_t` and it holds the tokens consumed;
and then the tokens, the step lines and the real part of the dump are the same. -/
theorem generate_modes_agree (model : GPT2Model α) (options : Options) (host : Host (Executor α))
    (hne : options.tokens ≠ []) (hcontext : checkContext options model.weights.config = .ok ())
    (hthreads : options.threads ≠ 0) (hserves : host.Serves) (hgrants : host.Grants options.threads) :
    ((∃ out, generateFull options model = .ok out) ↔ ∀ t ∈ options.tokens, TokenValid model.weights.config t) ∧
    ((∃ out, generateCached options model host = .ok out) ↔
      (∀ t ∈ options.tokens, TokenValid model.weights.config t) ∧
        consumedCount options ≤ (options.sessionCapacity model.weights.config).toNat ∧
        (options.sessionCapacity model.weights.config).toNat ≤ model.weights.config.maxSequenceLength.toNat ∧
        8 * (model.weights.config.numLayers.toNat * ((options.sessionCapacity model.weights.config).toNat *
          model.weights.config.channels.toNat)) < 2 ^ 64) ∧
    (options.capacity = none →
      8 * (model.weights.config.numLayers.toNat * (model.weights.config.maxSequenceLength.toNat *
        model.weights.config.channels.toNat)) < 2 ^ 64 →
      ((∃ out, generateFull options model = .ok out) ↔ ∃ out, generateCached options model host = .ok out)) ∧
    ∀ full cached, generateFull options model = .ok full → generateCached options model host = .ok cached →
      full.tokens = cached.tokens ∧ full.steps = cached.steps ∧
        cached.dump = full.dump.map (List.take model.weights.config.vocabularySize.toNat) := by
  have hfull := generateFull_ok_iff hne hcontext
  have hcached : (∃ out, generateCached options model host = .ok out) ↔ _ :=
    generateCached_ok_iff hne hcontext hthreads hserves
  simp only [hgrants, and_true] at hcached
  have hpos : 0 < consumedCount options := by
    have := List.length_pos_iff.2 hne
    unfold consumedCount
    omega
  refine ⟨hfull, ?_, ?_, ?_⟩
  · rw [hcached]
    unfold CapacityFits
    constructor
    · rintro ⟨hval, hroom, -, hle, hfits⟩
      exact ⟨hval, hroom, hle, hfits⟩
    · rintro ⟨hval, hroom, hle, hfits⟩
      exact ⟨hval, hroom, by omega, hle, hfits⟩
  · intro hnone hfits
    have hcapacity : options.sessionCapacity model.weights.config = model.weights.config.maxSequenceLength := by
      rw [Options.sessionCapacity, hnone, Option.getD_none]
    have hle := checkContext_ok_iff.1 hcontext
    rw [hfull, hcached, hcapacity]
    refine ⟨fun hval => ⟨hval, ?_, model.wellFormed.valid.maxSequenceLength, Nat.le_refl _, hfits⟩, fun h => h.1⟩
    unfold consumedCount
    split <;> omega
  · intro full cached hfullOk hcachedOk
    obtain ⟨hval, hroom, hfits⟩ := hcached.1 ⟨cached, hcachedOk⟩
    obtain ⟨row, hrow, hok⟩ := generateFull_ok hne hcontext hval
    rw [hfullOk, Except.ok.injEq] at hok
    have hok' := generateCached_ok hne hcontext hthreads hserves hgrants hval hroom hfits
    rw [hcachedOk, Except.ok.injEq] at hok'
    subst hok hok'
    refine ⟨rfl, rfl, ?_⟩
    by_cases hdump : options.dumpLastLogits = true
    · simp [hdump, hrow]
    · simp [hdump]

def tinyOptions : Options := { tokens := [0], maxNewTokens := 1, dumpLastLogits := true, capacity := none, threads := 1 }

theorem generate_modes_agree_tiny : ∃ full cached, generateFull tinyOptions tinyModel = .ok full ∧
    generateCached tinyOptions tinyModel (.granting fun _ => faulting fun _ => none) = .ok cached ∧
    full.tokens = cached.tokens := by
  have hval : ∀ t ∈ tinyOptions.tokens, TokenValid tinyModel.weights.config t := by decide
  obtain ⟨hfull, hcached, -, hagree⟩ := generate_modes_agree tinyModel tinyOptions (.granting fun _ => faulting fun _ => none)
    (by decide) (by decide) (by decide) serves_faulting (Host.grants_granting _ _)
  obtain ⟨full, hfullOk⟩ := hfull.2 hval
  obtain ⟨cached, hcachedOk⟩ := hcached.2 ⟨hval, by decide, by decide, by decide⟩
  exact ⟨full, cached, hfullOk, hcachedOk, (hagree full cached hfullOk hcachedOk).1⟩

/-- As many layers and positions as a header can declare. -/
def deepConfig : ModelConfig := ⟨2147483647, 1, 1, 2147483647, 1, 1⟩

theorem deepConfig_writable : deepConfig.Writable 1 := by
  refine ⟨⟨?_, ?_, ?_, ?_, ?_, ?_, ?_⟩, .inl rfl, fun _ => rfl, ?_, ?_, ?_, ?_, ?_⟩ <;> decide

theorem deepConfig_payload : 1024 + 4 * (List.replicate (ParameterLayout.parameterCount deepConfig) (0 : BitVec 32)).length < 2 ^ 63 := by
  rw [List.length_replicate]
  decide

def deepModel : GPT2Model Int :=
  .written 1 deepConfig (List.replicate (ParameterLayout.parameterCount deepConfig) 0) deepConfig_writable List.length_replicate
    deepConfig_payload

def promptOptions : Options := { tokens := [0], maxNewTokens := 0, dumpLastLogits := false, capacity := none, threads := 1 }

/-- Its default session would need `8 * (2 ^ 31 - 1) ^ 2` bytes: the cache's size check stops cached mode on
a prompt that full mode completes and the capacity has room for. -/
theorem generate_modes_differ_deep :
    checkContext promptOptions deepModel.weights.config = .ok () ∧
    (∀ t ∈ promptOptions.tokens, TokenValid deepModel.weights.config t) ∧
    consumedCount promptOptions ≤ (promptOptions.sessionCapacity deepModel.weights.config).toNat ∧
    (promptOptions.sessionCapacity deepModel.weights.config).toNat ≤ deepModel.weights.config.maxSequenceLength.toNat ∧
    (∃ out, generateFull promptOptions deepModel = .ok out) ∧
    ¬∃ out, generateCached promptOptions deepModel (.granting fun _ => faulting fun _ => none) = .ok out := by
  have hcontext : checkContext promptOptions deepModel.weights.config = .ok () :=
    checkContext_ok_iff.2 (show 1 + 0 ≤ 2147483647 by decide)
  have hval : ∀ t ∈ promptOptions.tokens, TokenValid deepModel.weights.config t := by
    intro t ht
    rw [List.mem_singleton.1 ht]
    show TokenValid deepConfig 0
    decide
  refine ⟨hcontext, hval, show 1 + 0 + 0 ≤ 2147483647 by decide, Nat.le_refl _, ?_, ?_⟩
  · exact (generateFull_ok_iff (by decide) hcontext).2 hval
  · rw [generateCached_ok_iff (by decide) hcontext (by decide) serves_faulting]
    rintro ⟨-, -, ⟨-, -, hfits⟩, -⟩
    exact absurd hfits (show ¬8 * (2147483647 * (2147483647 * 1)) < 2 ^ 64 by decide)

end Gpt2Runtime
