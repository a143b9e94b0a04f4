import Gpt2Runtime.BenchmarkSpec
import Gpt2Runtime.GenerateMain
import Gpt2Runtime.SessionLaws
/-
# The benchmark as a program (`app/gpt2_benchmark.cpp`)

| here | there |
| --- | --- |
| `Setting`, `Setting.Spells` | the arguments `parse_options` reads (`gpt2_benchmark.cpp:101-142`) and how they are written |
| `usage`                 | `print_usage` (`:59-65`) |
| `report`                | the lines of `main` (`:243-276`, `:311`, `:332`, `:389-404`) that neither the clock nor the machine decides; `cpu`, `kernel`, `compiler`, `build_type`, the samples, their medians and the two ratios are left out |
| `execute`               | `main` between the command line and the last line (`:215-404`) |
| `main`                  | `main` (`:209-411`); `Exit.failure` is exit status 1 with the usage and the message, the lines printed before are left out |

The report multiplies `size_t`s without a check; on a loaded checkpoint none of the products wraps, so every run that
reaches the end prints the numbers it says (`main_reports_iff`).
-/

namespace Gpt2Runtime.Benchmark

open Loop Flat Word CommandLine Arguments InferenceSession

/-! ## The command line -/

def takesValue (argument : String) : Bool := (setOption {} argument []).isSome

/-- Which arguments take a value depends on neither the value nor the options. -/
theorem isSome_setOption (options : Options) (argument : String) (value : List Char) :
    (setOption options argument value).isSome = takesValue argument := by
  unfold takesValue setOption
  split_ifs <;> rfl

def grammar : Arguments.Syntax String Options Exc where
  valued argument :=
    if takesValue argument then some fun value options => (setOption options argument value.toList).getD (.ok options) else none
  single argument := if argument = "--skip-full-prefix" then some fun options => { options with skipFullPrefix := true } else none
  help argument := decide (argument = "--help")
  unknown argument := .invalidArgument ("unknown or incomplete argument: " ++ argument)
  apart argument h := by
    have htakes : takesValue argument = true := by
      by_contra hno
      rw [if_neg hno] at h
      cases h
    refine ⟨if_neg ?_, decide_eq_false ?_⟩ <;> rintro rfl <;> exact absurd htakes (by decide)

theorem parseFlag_eq (options : Options) (argument : String) : parseFlag options argument = grammar.lone options argument := by
  unfold parseFlag Syntax.lone grammar
  by_cases hskip : argument = "--skip-full-prefix"
  · simp only [if_pos hskip]
  · by_cases hhelp : argument = "--help"
    · simp only [if_neg hskip, if_pos hhelp, decide_eq_true hhelp, if_true]
    · simp only [if_neg hskip, if_neg hhelp, decide_eq_false hhelp, Bool.false_eq_true, if_false]

theorem parseArguments_eq (options : Options) (arguments : List String) :
    parseArguments options arguments = grammar.parse options arguments := by
  fun_induction parseArguments options arguments with
  | case1 options => rfl
  | case2 options argument => exact parseFlag_eq options argument
  | case3 options argument value rest set hset ih =>
    have htakes : takesValue argument = true := by rw [← isSome_setOption options argument value.toList, hset]; rfl
    rw [Syntax.parse_valued (g := grammar) (if_pos htakes)]
    simp only [hset, Option.getD_some]
    exact congrArg (set >>= ·) (funext ih)
  | case4 options argument value rest hset ih =>
    have htakes : ¬takesValue argument = true := by
      rw [← isSome_setOption options argument value.toList, hset]
      exact Bool.false_ne_true
    rw [Syntax.parse_lone (g := grammar) (if_neg htakes), parseFlag_eq]
    congr 1
    funext r
    cases r with
    | none => rfl
    | some options => exact ih options

/-! ## Settings -/

inductive Setting where
  | checkpoint (path : String)
  | tokens (ids : List Int32)
  | generationTokens (count : UInt64)
  | capacity (count : UInt64)
  | warmup (count : UInt64)
  | repetitions (count : UInt64)
  | threads (count : UInt64)
  | skipFullPrefix

namespace Setting

/-- The words of a setting. -/
inductive Spells : Setting → List String → Prop
  | checkpoint (path : String) : Spells (.checkpoint path) ["--checkpoint", path]
  | tokens {text : String} {ids : List Int32} (h : Accepts text.toList ids) : Spells (.tokens ids) ["--tokens", text]
  | generationTokens {text : String} {count : UInt64} (h : Numeral False text.toList count.toNat) :
      Spells (.generationTokens count) ["--generation-tokens", text]
  | capacity {text : String} {count : UInt64} (h : Numeral False text.toList count.toNat) :
      Spells (.capacity count) ["--capacity", text]
  | warmup {text : String} {count : UInt64} (h : Numeral False text.toList count.toNat) :
      Spells (.warmup count) ["--warmup", text]
  | repetitions {text : String} {count : UInt64} (h : Numeral False text.toList count.toNat) :
      Spells (.repetitions count) ["--repetitions", text]
  | threads {text : String} {count : UInt64} (h : Numeral False text.toList count.toNat) :
      Spells (.threads count) ["--threads", text]
  | skipFullPrefix : Spells .skipFullPrefix ["--skip-full-prefix"]

def apply (setting : Setting) (options : Options) : Options :=
  match setting with
  | .checkpoint path => { options with checkpoint := path.toList }
  | .tokens ids => { options with tokens := ids }
  | .generationTokens count => { options with generationTokens := count }
  | .capacity count => { options with capacity := count }
  | .warmup count => { options with warmup := count }
  | .repetitions count => { options with repetitions := count }
  | .threads count => { options with threads := count }
  | .skipFullPrefix => { options with skipFullPrefix := true }

end Setting

theorem valued_setting {word value : String} {set : String → Options → Except Exc Options} {options options' : Options}
    (hword : grammar.valued word = some set) (hset : set value options = .ok options') :
    ∃ setting : Setting, setting.Spells [word, value] ∧ options' = setting.apply options := by
  have htakes : takesValue word = true := by
    by_contra hno
    rw [show grammar.valued word = none from if_neg hno] at hword
    cases hword
  rw [show grammar.valued word = some _ from if_pos htakes, Option.some.injEq] at hword
  subst hword
  obtain ⟨set, hoption⟩ := Option.isSome_iff_exists.1 ((isSome_setOption options word value.toList).trans htakes)
  simp only [hoption, Option.getD_some] at hset
  unfold setOption at hoption
  split at hoption
  · next h =>
    subst h
    cases hoption
    exact ⟨_, .checkpoint value, (Except.ok.inj hset).symm⟩
  split at hoption
  · next h =>
    subst h
    cases hoption
    obtain ⟨ids, hids, hset⟩ := bind_eq_ok.1 hset
    exact ⟨_, .tokens (parseTokens_ok_iff.1 hids), (Except.ok.inj hset).symm⟩
  split at hoption
  · next h =>
    subst h
    cases hoption
    obtain ⟨count, hcount, hset⟩ := bind_eq_ok.1 hset
    exact ⟨_, .generationTokens (parseSize_ok_iff.1 hcount), (Except.ok.inj hset).symm⟩
  split at hoption
  · next h =>
    subst h
    cases hoption
    obtain ⟨count, hcount, hset⟩ := bind_eq_ok.1 hset
    exact ⟨_, .capacity (parseSize_ok_iff.1 hcount), (Except.ok.inj hset).symm⟩
  split at hoption
  · next h =>
    subst h
    cases hoption
    obtain ⟨count, hcount, hset⟩ := bind_eq_ok.1 hset
    exact ⟨_, .warmup (parseSize_ok_iff.1 hcount), (Except.ok.inj hset).symm⟩
  split at hoption
  · next h =>
    subst h
    cases hoption
    obtain ⟨count, hcount, hset⟩ := bind_eq_ok.1 hset
    exact ⟨_, .repetitions (parseSize_ok_iff.1 hcount), (Except.ok.inj hset).symm⟩
  split at hoption
  · next h =>
    subst h
    cases hoption
    obtain ⟨count, hcount, hset⟩ := bind_eq_ok.1 hset
    exact ⟨_, .threads (parseSize_ok_iff.1 hcount), (Except.ok.inj hset).symm⟩
  · cases hoption

theorem single_setting {word : String} {set : Options → Options} (options : Options) (hword : grammar.single word = some set) :
    ∃ setting : Setting, setting.Spells [word] ∧ set options = setting.apply options := by
  by_cases h : word = "--skip-full-prefix"
  · subst h
    cases hword
    exact ⟨_, .skipFullPrefix, rfl⟩
  · rw [show grammar.single word = none from if_neg h] at hword
    cases hword

theorem reads_setting {setting : Setting} {words : List String} (options : Options) (h : setting.Spells words) :
    grammar.Reads options words (setting.apply options) := by
  cases h with
  | checkpoint path => exact .valued rfl rfl .nil
  | tokens h => exact .valued rfl (show (parseTokens _ >>= _) = _ by rw [parseTokens_ok_iff.2 h]; rfl) .nil
  | generationTokens h => exact .valued rfl (show (parseSize _ _ >>= _) = _ by rw [parseSize_ok_iff.2 h]; rfl) .nil
  | capacity h => exact .valued rfl (show (parseSize _ _ >>= _) = _ by rw [parseSize_ok_iff.2 h]; rfl) .nil
  | warmup h => exact .valued rfl (show (parseSize _ _ >>= _) = _ by rw [parseSize_ok_iff.2 h]; rfl) .nil
  | repetitions h => exact .valued rfl (show (parseSize _ _ >>= _) = _ by rw [parseSize_ok_iff.2 h]; rfl) .nil
  | threads h => exact .valued rfl (show (parseSize _ _ >>= _) = _ by rw [parseSize_ok_iff.2 h]; rfl) .nil
  | skipFullPrefix => exact .single rfl .nil

def spelling : Arguments.Spelling grammar Setting where
  Spells := Setting.Spells
  apply := Setting.apply
  valued := valued_setting
  single := single_setting
  reads := reads_setting

theorem asks_iff {word : String} : grammar.Asks word ↔ word = "--help" := by
  constructor
  · exact fun h => of_decide_eq_true h.2
  · rintro rfl
    exact ⟨rfl, rfl⟩

/-- The arguments spell settings, which leave `options`. -/
def Describes (arguments : List String) (options : Options) : Prop :=
  ∃ settings words, List.Forall₂ Setting.Spells settings words ∧ words.flatten = arguments ∧
    options = settings.foldl (fun options setting => setting.apply options) {}

/-- What the checks behind the loop ask for. -/
structure Options.Consistent (options : Options) : Prop where
  checkpoint : options.checkpoint ≠ []
  generationTokens : options.generationTokens ≠ 0
  repetitions : options.repetitions ≠ 0
  threads : options.threads ≠ 0

theorem checkOptions_ok_iff {options : Options} : checkOptions options = .ok () ↔ options.Consistent := by
  unfold checkOptions
  rw [throwIf_bind_ok, throwIf_bind_ok, throwIf_bind_ok, throwIf_ok_iff]
  exact ⟨fun ⟨h1, h2, h3, h4⟩ => ⟨h1, h2, h3, h4⟩, fun h => ⟨h.checkpoint, h.generationTokens, h.repetitions, h.threads⟩⟩

theorem parseOptions_ok_iff {arguments : List String} {options : Options} :
    parseOptions arguments = .ok (some options) ↔ Describes arguments options ∧ options.Consistent := by
  unfold parseOptions
  rw [parseArguments_eq]
  constructor
  · intro h
    obtain ⟨r, hparse, h⟩ := bind_eq_ok.1 h
    cases r with
    | none => cases h
    | some options' =>
      obtain ⟨⟨⟩, hcheck, h⟩ := bind_eq_ok.1 h
      obtain rfl : options' = options := Option.some.inj (Except.ok.inj h)
      exact ⟨spelling.reads_iff.1 (Syntax.parse_some_iff.1 hparse), checkOptions_ok_iff.1 hcheck⟩
  · rintro ⟨hdescribes, hconsistent⟩
    rw [Syntax.parse_some_iff.2 (spelling.reads_iff.2 hdescribes), ok_bind]
    simp only [checkOptions_ok_iff.2 hconsistent, ok_bind, pure_ok]

theorem parseOptions_help_iff {arguments : List String} : parseOptions arguments = .ok none ↔
    ∃ before tail options, arguments = before ++ "--help" :: tail ∧ Describes before options := by
  unfold parseOptions
  rw [parseArguments_eq]
  constructor
  · intro h
    obtain ⟨r, hparse, h⟩ := bind_eq_ok.1 h
    cases r with
    | none =>
      obtain ⟨before, word, tail, options, harguments, hreads, hasks⟩ := Syntax.parse_none_iff.1 hparse
      rw [asks_iff.1 hasks] at harguments
      exact ⟨before, tail, options, harguments, spelling.reads_iff.1 hreads⟩
    | some options =>
      obtain ⟨⟨⟩, -, h⟩ := bind_eq_ok.1 h
      cases h
  · rintro ⟨before, tail, options, rfl, hdescribes⟩
    rw [Syntax.parse_none_iff.2 ⟨before, "--help", tail, options, rfl, spelling.reads_iff.2 hdescribes, asks_iff.2 rfl⟩]
    rfl

/-! ## The report -/

open Generate (Files printSize tokenText loadModel loadModel_ok_iff Loads)

inductive Exit where
  | success (lines : List String)
  | help (stderr : String)
  | failure (stderr : String)

def usage (program : String) : String :=
  "Usage: " ++ program ++ " --checkpoint PATH [--tokens ID[,ID...]]" ++ " [--generation-tokens N] [--capacity N]" ++
    " [--warmup N] [--repetitions N] [--threads N]" ++ " [--skip-full-prefix]\n"

def tokensText (tokens : List Int32) : String := String.ofList (printTokens tokens)

variable {α : Type} [Scalar α] {model : GPT2Model α}

/-- What `main` prints before the measurements. -/
def heading (options : Options) (model : GPT2Model α) (capacity : UInt64) : List String :=
  let config := model.weights.config
  ["benchmark=gpt2_milestone3",
    "checkpoint=" ++ String.ofList options.checkpoint,
    "checkpoint_version=" ++ tokenText model.weights.checkpointVersion,
    "model=L" ++ printSize config.numLayers ++ "_H" ++ printSize config.numHeads ++ "_C" ++ printSize config.channels ++
      "_V" ++ printSize config.vocabularySize,
    "prompt_tokens=" ++ tokensText options.tokens,
    "prompt_length=" ++ printSize (UInt64.ofNat options.tokens.length),
    "generation_tokens=" ++ printSize options.generationTokens,
    "capacity=" ++ printSize capacity,
    "warmup=" ++ printSize options.warmup,
    "repetitions=" ++ printSize options.repetitions,
    "threads=" ++ printSize options.threads,
    "fp_contract=off"]

/-- `cache_bytes` is read from the session as constructed: no call changes it (`step_cacheOf`). -/
def report (options : Options) (model : GPT2Model α) (capacity : UInt64) (session : InferenceSession model)
    (generations : Generations) : List String :=
  let config := model.weights.config
  heading options model capacity ++
    ["single_decode_context_length=" ++ printSize (UInt64.ofNat options.tokens.length)] ++
    (if options.skipFullPrefix then ["full_prefix_generation=skipped"] else []) ++
    ["kv_cache_bytes=" ++ printSize session.cacheBytes,
      "session_logits_bytes=" ++ printSize (config.vocabularySize * 4),
      "m1_final_logits_bytes=" ++
        printSize ((UInt64.ofNat options.tokens.length + options.generationTokens - 1) * config.paddedVocabularySize * 4),
      "generated_tokens=" ++ tokensText generations.cached,
      "timing_excludes=model_load,session_creation,logging,logits_dump"]

def execute (files : Files) (host : Host (Executor α)) (options : Options) : Except Exc (List String) := do
  let model ← loadModel files (String.ofList options.checkpoint)
  let executor ← makeExecutor host options.threads
  let capacity ← validate options model.weights.config
  let _ ← sessionCreation host options model capacity
  let session ← InferenceSession.make model capacity
  let generations ← generations host options executor session
  let _ ← projections host options model
  pure (report options model capacity session generations)

def failure (program : String) (e : Exc) : Exit := .failure (usage program ++ "gpt2_benchmark: " ++ e.what ++ "\n")

def main (files : Files) (host : Host (Executor α)) (program : String) (arguments : List String) : Exit :=
  match parseOptions arguments with
  | .error e => failure program e
  | .ok none => .help (usage program)
  | .ok (some options) =>
    match execute files host options with
    | .error e => failure program e
    | .ok lines => .success lines

/-! ## What a run needs and leaves -/

/-- What the run of a command line needs besides its syntax. -/
structure Measurable (options : Options) (config : ModelConfig) : Prop where
  valid : ∀ t ∈ options.tokens, TokenValid config t
  context : options.tokens.length + options.generationTokens.toNat ≤ config.maxSequenceLength.toNat
  room : options.tokens.length + (options.generationTokens.toNat - 1) ≤ (options.sessionCapacity config).toNat
  capacity_le : (options.sessionCapacity config).toNat ≤ config.maxSequenceLength.toNat
  fits : 8 * (config.numLayers.toNat * ((options.sessionCapacity config).toNat * config.channels.toNat)) < 2 ^ 64
  not_tight : ¬options.Tight (options.sessionCapacity config)

def countText (n : Nat) : String := String.ofList (Nat.toDigits 10 n)

/-- The report, over the natural numbers. -/
def expected (options : Options) (model : GPT2Model α) : List String :=
  let config := model.weights.config
  heading options model (options.sessionCapacity config) ++
    ["single_decode_context_length=" ++ countText options.tokens.length] ++
    (if options.skipFullPrefix then ["full_prefix_generation=skipped"] else []) ++
    ["kv_cache_bytes=" ++ countText
        (8 * (config.numLayers.toNat * ((options.sessionCapacity config).toNat * config.channels.toNat))),
      "session_logits_bytes=" ++ countText (4 * config.vocabularySize.toNat),
      "m1_final_logits_bytes=" ++ countText
        (4 * ((options.tokens.length + (options.generationTokens.toNat - 1)) * config.paddedVocabularySize.toNat)),
      "generated_tokens=" ++ tokensText (greedy model.logits options.tokens options.generationTokens.toNat),
      "timing_excludes=model_load,session_creation,logging,logits_dump"]

variable {files : Files} {host : Host (Executor α)} {options : Options} {capacity : UInt64} {session : InferenceSession model}
  {executor : Option (Executor α)}

theorem Options.Consistent.parsed (h : options.Consistent) (htokens : options.tokens ≠ []) : options.Parsed :=
  ⟨htokens, pos_of_ne_zero h.generationTokens, pos_of_ne_zero h.repetitions, h.threads⟩

/-- **The generations of a run that returns.** -/
theorem generations_eq (hreserve : host.reserve options.repetitions = .ok ()) (hf : Faithful executor) (hp : options.Parsed)
    (hv : validate options model.weights.config = .ok capacity) (h : session.Holds capacity []) {g : Generations}
    (hg : generations host options executor session = .ok g) :
    g.cached = greedy model.logits options.tokens options.generationTokens.toNat := by
  obtain ⟨-, -, hroom, -, hvalid⟩ := (validate_ok_iff hp).1 hv
  have hlt := room_of_not_tight hp hroom ((generations_ok_iff hreserve hf hp hv h).1 ⟨g, hg⟩)
  obtain ⟨s₁, hprefill, hholds₁⟩ := prefillPhase_ok hreserve hf hp hvalid (Nat.le_of_lt hlt) h
  obtain ⟨s₂, hinitial, hholds₂, hlogits⟩ := resetPrefill_ok hf hp hvalid (Nat.le_of_lt hlt) hholds₁
  have htoken : TokenValid model.weights.config (greedyToken s₂.logits) := by
    rw [hlogits]
    exact greedyToken_logits_valid model _
  obtain ⟨s₃, hdecode, hholds₃⟩ := singleDecode_ok hreserve hf hp hvalid hlt htoken hholds₂
  obtain ⟨s₄, hcached, hlast⟩ := cachedGeneration_ok hreserve hf hp hvalid hroom hholds₃
  simp only [generations, hprefill, hinitial, hdecode, hcached, ok_bind] at hg
  obtain ⟨full, -, hg⟩ := bind_eq_ok.1 hg
  obtain ⟨-, hg⟩ := throwIf_bind_ok.1 hg
  obtain rfl := Except.ok.inj hg
  exact hlast

/-! ## The numbers -/

omit [Scalar α] in
theorem printSize_eq {n : UInt64} {m : Nat} (h : n.toNat = m) : printSize n = countText m := by rw [printSize, countText, h]

/-- **No product of the report wraps.** -/
theorem report_eq (hp : options.Parsed) (h : Measurable options model.weights.config)
    (hmake : InferenceSession.make model (options.sessionCapacity model.weights.config) = .ok session) {g : Generations}
    (hg : g.cached = greedy model.logits options.tokens options.generationTokens.toNat) :
    report options model (options.sessionCapacity model.weights.config) session g = expected options model := by
  have hT := toNat_lt model.weights.config.maxSequenceLength
  have hG := hp.generationTokens
  have hcontext := h.context
  have hpos := List.length_pos_iff.2 hp.tokens
  have hone : (1 : UInt64).toNat = 1 := rfl
  have hfour : (4 : UInt64).toNat = 4 := rfl
  have hlength : (UInt64.ofNat options.tokens.length).toNat = options.tokens.length := toNat_ofNat_of_lt (by omega)
  have hsum : (UInt64.ofNat options.tokens.length + options.generationTokens).toNat =
      options.tokens.length + options.generationTokens.toNat := toNat_add_eq hlength rfl (by omega)
  have hconsumed : (UInt64.ofNat options.tokens.length + options.generationTokens - 1).toNat =
      options.tokens.length + (options.generationTokens.toNat - 1) := by
    rw [UInt64.toNat_sub_of_le _ _ (by rw [le_iff, hsum, hone]; omega), hsum, hone]
    omega
  have hrows := (model.wellFormed.sizes.rowsFit (by rw [hconsumed]; omega) (by rw [hconsumed]; omega)).logits_lt
  have hvocabulary : (model.weights.config.vocabularySize * 4).toNat = 4 * model.weights.config.vocabularySize.toNat := by
    have hone' := (model.wellFormed.sizes.rowsFit (show 0 < (1 : UInt64).toNat by decide) (by rw [hone]; omega)).logits_lt
    have hpad := model.wellFormed.valid.padded_ge
    rw [hone] at hone'
    rw [toNat_mul_of_lt (by rw [hfour]; omega), hfour, Nat.mul_comm]
  have hfinal : ((UInt64.ofNat options.tokens.length + options.generationTokens - 1) *
      model.weights.config.paddedVocabularySize * 4).toNat =
        4 * ((options.tokens.length + (options.generationTokens.toNat - 1)) * model.weights.config.paddedVocabularySize.toNat) := by
    have hinner := toNat_mul_of_lt (Nat.lt_trans hrows (by decide))
    rw [hconsumed] at hrows hinner
    rw [toNat_mul_of_lt (by rw [hinner, hfour]; omega), hinner, hfour, Nat.mul_comm]
  have hreach : Reachable (fun _ => True) (options.sessionCapacity model.weights.config) session [] := .make hmake
  unfold report expected
  simp only [hg, printSize_eq hlength, printSize_eq hvocabulary, printSize_eq hfinal, printSize_eq hreach.cacheBytes]

/-! ## Whole runs -/

/-- **A run returns exactly if it is measurable** and the host grants what it asks for. -/
theorem execute_ok_iff (hserves : host.Serves) (hp : options.Parsed) {lines : List String} :
    execute files host options = .ok lines ↔ ∃ model : GPT2Model α, Loads files (String.ofList options.checkpoint) model ∧
      Measurable options model.weights.config ∧ options.Granted host ∧ lines = expected options model := by
  have hpos := List.length_pos_iff.2 hp.tokens
  unfold execute
  constructor
  · intro h
    obtain ⟨model, hload, h⟩ := bind_eq_ok.1 h
    obtain ⟨executor, hexecutor, h⟩ := bind_eq_ok.1 h
    have hf := hserves.faithful hexecutor
    obtain ⟨capacity, hvalidate, h⟩ := bind_eq_ok.1 h
    obtain ⟨_, hcreated, h⟩ := bind_eq_ok.1 h
    have hreserve := reserve_of_measure hcreated
    obtain ⟨session, hmake, h⟩ := bind_eq_ok.1 h
    obtain ⟨g, hg, h⟩ := bind_eq_ok.1 h
    obtain ⟨-, -, h⟩ := bind_eq_ok.1 h
    obtain rfl := Except.ok.inj h
    obtain ⟨hfits, hholds⟩ := make_holds hmake
    have htight := (generations_ok_iff hreserve hf hp hvalidate hholds).1 ⟨g, hg⟩
    obtain ⟨rfl, hcontext, hroom, hle, hvalid⟩ := (validate_ok_iff hp).1 hvalidate
    have hmeasurable : Measurable options model.weights.config := ⟨hvalid, hcontext, hroom, hle, hfits.2.2, htight⟩
    exact ⟨model, loadModel_ok_iff.1 hload, hmeasurable, ⟨(grants_iff hp.threads).2 ⟨executor, hexecutor⟩, hreserve⟩,
      report_eq hp hmeasurable hmake (generations_eq hreserve hf hp hvalidate hholds hg)⟩
  · rintro ⟨model, hload, h, ⟨hgrants, hreserve⟩, rfl⟩
    obtain ⟨executor, hexecutor⟩ := (grants_iff hp.threads).1 hgrants
    have hf := hserves.faithful hexecutor
    have hcontext := h.context
    have hroom := h.room
    have hvalidate := (validate_ok_iff hp).2 ⟨rfl, h.context, h.room, h.capacity_le, h.valid⟩
    have hlt := room_of_not_tight hp h.room h.not_tight
    obtain ⟨session, hmake⟩ := (make_ok_iff model _).2 ⟨by omega, h.capacity_le, h.fits⟩
    have hholds := (make_holds hmake).2
    obtain ⟨created, hcreated⟩ := sessionCreation_ok hreserve hp hmake
    obtain ⟨g, hg⟩ := (generations_ok_iff hreserve hf hp hvalidate hholds).2 h.not_tight
    have hlength : options.tokens.length ≤ model.weights.config.maxSequenceLength.toNat := by omega
    obtain ⟨projected, hprojected⟩ := projections_ok hreserve hp hlength
    simp only [loadModel_ok_iff.2 hload, hexecutor, hvalidate, hcreated, hmake, hg, hprojected, ok_bind, pure_ok]
    exact congrArg Except.ok (report_eq hp h hmake (generations_eq hreserve hf hp hvalidate hholds hg))

theorem success_iff (hserves : host.Serves) {program : String} {arguments lines : List String} :
    main files host program arguments = .success lines ↔
      ∃ (options : Options) (model : GPT2Model α), Describes arguments options ∧ options.Consistent ∧
        Loads files (String.ofList options.checkpoint) model ∧ Measurable options model.weights.config ∧
        options.Granted host ∧ lines = expected options model := by
  unfold main
  constructor
  · intro h
    split at h
    · cases h
    · cases h
    · next options hparse =>
      obtain ⟨hdescribes, hconsistent⟩ := parseOptions_ok_iff.1 hparse
      split at h
      · cases h
      · next lines' hlines =>
        obtain ⟨model, hload, hmeasurable, hgranted, rfl⟩ := (execute_ok_iff hserves (parseOptions_parsed hparse)).1 hlines
        cases h
        exact ⟨options, model, hdescribes, hconsistent, hload, hmeasurable, hgranted, rfl⟩
  · rintro ⟨options, model, hdescribes, hconsistent, hload, hmeasurable, hgranted, rfl⟩
    have hparse := parseOptions_ok_iff.2 ⟨hdescribes, hconsistent⟩
    simp only [hparse, (execute_ok_iff hserves (parseOptions_parsed hparse)).2 ⟨model, hload, hmeasurable, hgranted, rfl⟩]

theorem tinyRun_described {text : String} {capacity : UInt64} (h : parseSize text.toList "--capacity" = .ok capacity) :
    Describes (tinyArguments text) (tinyRun capacity) ∧ (tinyRun capacity).Consistent :=
  parseOptions_ok_iff.1 (parse_tinyArguments h)

theorem tinyRun_measurable : Measurable (tinyRun 2) tinyModel.weights.config :=
  ⟨by decide, by decide, by decide, by decide, by decide, fun h => absurd h.2 (by decide)⟩

end Gpt2Runtime.Benchmark
