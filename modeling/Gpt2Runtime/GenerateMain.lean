import Gpt2Runtime.GenerateCommand
import Gpt2Runtime.GenerateSpec
import Gpt2Runtime.SharedExecutor
/-
# The generator as a program (`app/gpt2_generate.cpp`)

| here | there |
| --- | --- |
| `Files`                 | what the paths lead to: a readable checkpoint, a file that takes the dump |
| `loadModel`             | `load_checkpoint` and the constructor of `GPT2Model` (`gpt2_generate.cpp:234`), with the opening of the file (`model.cpp:188-191`) |
| `openDump`              | the opening of the file in `dump_binary` (`:137-140`); writing succeeds |
| `usage`                 | `print_usage` (`:39-45`) |
| `stepText`, `dumpText`, `tokensText` | what `print_step` (`:157-161`), the two modes (`:183`, `:224`) and `main` (`:248-252`) print |
| `generate`              | `main` between the command line and the last line (`:234-246`) |
| `main`                  | `main` (`:231-259`); `Exit.failure` is exit status 1 with the usage and the message, the lines printed before are left out |
-/

namespace Gpt2Runtime

open Loop Flat Word Arguments InferenceSession

variable {α : Type}

/-- `what()`. -/
def Exc.what : Exc → String
  | .invalidArgument what | .lengthError what | .logicError what | .outOfRange what | .overflowError what | .runtimeError what => what
  | .badAlloc => "std::bad_alloc"
  | .undefined => ""

/-- Every executor the host starts does what the threads of `LinearExecutor` can do. -/
def Host.Realizes [Scalar α] (host : Host (Executor α)) : Prop :=
  ∀ (threads : UInt64) (executor : Executor α), threads ≠ 0 → host.start threads = .ok executor →
    LinearExecutor.Realizes threads executor

theorem Host.Realizes.serves [Scalar α] {host : Host (Executor α)} (h : host.Realizes) : host.Serves :=
  fun threads executor hthreads hstart => (h threads executor hthreads hstart).faithful (Word.pos_of_ne_zero hthreads)

theorem exists_host (α : Type) [Scalar α] : ∃ start : UInt64 → Executor α, (Host.granting start).Realizes := by
  obtain ⟨start, hstart⟩ := LinearExecutor.exists_executors α
  refine ⟨start, fun threads executor hthreads hgranted => ?_⟩
  obtain rfl := Except.ok.inj hgranted
  exact hstart threads hthreads

namespace Generate

structure Files where
  checkpoint : String → Option CheckpointFile
  writable : String → Bool

inductive Exit (α : Type) where
  | success (stdout : String) (dump : Option (List α))
  | help (stderr : String)
  | failure (stderr : String)

/-- The fields `generate_full` and `generate_cached` read. -/
def Options.request (options : Options) : Gpt2Runtime.Options where
  tokens := options.tokens
  maxNewTokens := options.maxNewTokens
  dumpLastLogits := decide (options.dumpLastLogits ≠ "")
  capacity := options.capacity
  threads := options.threads

def usage (program : String) : String :=
  "Usage: " ++ program ++ " --checkpoint PATH --tokens ID[,ID...]" ++ " [--max-new-tokens N] [--greedy]" ++
    " [--mode full|cached] [--capacity N] [--threads N]" ++ " [--dump-last-logits PATH]\n"

def tokenText (token : Int32) : String := String.ofList (CommandLine.printToken token)

def stepText (line : StepLine) : String :=
  "step " ++ printSize line.step ++ " prefix_length " ++ printSize line.prefixLength ++ " next_token " ++
    tokenText line.token ++ "\n"

def dumpText (path : String) : Option (List α) → String
  | some values => "dumped_last_logits: " ++ path ++ " (" ++ printSize (UInt64.ofNat values.length) ++ " float32 values)\n"
  | none => ""

def tokensText (tokens : List Int32) : String :=
  "output_tokens:" ++ String.join (tokens.map fun token => " " ++ tokenText token) ++ "\n"

/-- All of standard output, when nothing is thrown. -/
def stdout (options : Options) (out : Output α) : String :=
  String.join (out.steps.map stepText) ++ dumpText options.dumpLastLogits out.dump ++ tokensText out.tokens

def openDump (files : Files) (path : String) : Option (List α) → Except Exc Unit
  | some _ => throwIf (files.writable path = false) (.runtimeError ("cannot open logits output: " ++ path))
  | none => .ok ()

variable [Scalar α]

def loadModel (files : Files) (path : String) : Except Exc (GPT2Model α) :=
  match files.checkpoint path with
  | none => .error (.runtimeError ("cannot open checkpoint: " ++ path))
  | some file =>
    match h : ModelWeights.loadCheckpoint file with
    | .ok weights => .ok ⟨weights, file, h⟩
    | .error e => .error e

def generateIn (options : Options) (model : GPT2Model α) (host : Host (Executor α)) : Except Exc (Output α) :=
  match options.mode with
  | .full => generateFull options.request model
  | .cached => generateCached options.request model host

def generate (files : Files) (host : Host (Executor α)) (options : Options) : Except Exc (Output α) := do
  let model ← loadModel files options.checkpoint
  checkContext options.request model.weights.config
  let out ← generateIn options model host
  openDump files options.dumpLastLogits out.dump
  pure out

def failure (program : String) (e : Exc) : Exit α :=
  .failure (usage program ++ "gpt2_generate: " ++ e.what ++ "\n")

def main (files : Files) (host : Host (Executor α)) (program : String) (arguments : List String) : Exit α :=
  match parseOptions arguments with
  | .error e => failure program e
  | .ok none => .help (usage program)
  | .ok (some options) =>
    match generate files host options with
    | .error e => failure program e
    | .ok out => .success (stdout options out) out.dump

/-! ## What a run needs -/

/-- The checkpoint of the options loads into the model. -/
def Loads (files : Files) (path : String) (model : GPT2Model α) : Prop :=
  ∃ file, files.checkpoint path = some file ∧ ModelWeights.loadCheckpoint file = .ok model.weights

theorem loadModel_ok_iff {files : Files} {path : String} {model : GPT2Model α} :
    loadModel files path = .ok model ↔ Loads files path model := by
  unfold loadModel Loads
  cases hfile : files.checkpoint path with
  | none => simp
  | some file =>
    simp only [Option.some.injEq, exists_eq_left']
    split
    · next weights h =>
      constructor
      · rintro ⟨⟩
        exact h
      · intro hweights
        obtain ⟨weights', hloaded⟩ := model
        obtain rfl : weights = weights' := Except.ok.inj (h.symm.trans hweights)
        rfl
    · next e h => simp [h]

theorem Loads.unique {files : Files} {path : String} {model model' : GPT2Model α} (h : Loads files path model)
    (h' : Loads files path model') : model = model' := by
  have heq := (loadModel_ok_iff.2 h).symm.trans (loadModel_ok_iff.2 h')
  exact Except.ok.inj heq

/-- What the run of a command line needs besides its syntax. -/
structure Completes (files : Files) (host : Host (Executor α)) (options : Options) (model : GPT2Model α) : Prop where
  loads : Loads files options.checkpoint model
  valid : ∀ t ∈ options.tokens, TokenValid model.weights.config t
  context : options.tokens.length + options.maxNewTokens.toNat ≤ model.weights.config.maxSequenceLength.toNat
  room : options.mode = .cached →
    consumedCount options.request ≤ (options.request.sessionCapacity model.weights.config).toNat
  capacity : options.mode = .cached →
    CapacityFits model.weights.config (options.request.sessionCapacity model.weights.config)
  executor : options.mode = .cached → host.Grants options.threads
  dump : options.dumpLastLogits ≠ "" → files.writable options.dumpLastLogits = true

/-! ## What a run leaves -/

/-- The last row of `forward`, padding included. -/
def paddedLogits (model : GPT2Model α) (P : List Int32) : List α :=
  (List.range model.weights.config.paddedVocabularySize.toNat).map (model.network.logit (tokenAt P) (P.length - 1))

theorem take_paddedLogits (model : GPT2Model α) (P : List Int32) :
    (paddedLogits model P).take model.weights.config.vocabularySize.toNat = model.logits P := by
  have hpad := model.wellFormed.valid.padded_ge
  rw [paddedLogits, ← List.map_take, List.take_range, Nat.min_eq_left hpad]
  rfl

/-- The tokens of a run. -/
def tokensAfter (options : Options) (model : GPT2Model α) : List Int32 :=
  greedy model.logits options.tokens options.maxNewTokens.toNat

def dumped (options : Options) (model : GPT2Model α) : Option (List α) :=
  if options.dumpLastLogits = "" then none
  else some (match options.mode with
    | .full => paddedLogits model (tokensAfter options model)
    | .cached => model.logits (tokensAfter options model))

def expected (options : Options) (model : GPT2Model α) : Output α where
  tokens := tokensAfter options model
  steps := greedyLines model.logits options.tokens options.maxNewTokens.toNat
  dump := dumped options model

/-- Models of the same logits generate the same. -/
theorem greedy_congr {A B : GPT2Model α} (hlogits : ∀ P, Accepted A.weights.config P → B.logits P = A.logits P)
    {prompt : List Int32} (hne : prompt ≠ []) (hvalid : ∀ t ∈ prompt, TokenValid A.weights.config t) {n : Nat}
    (hle : prompt.length + n ≤ A.weights.config.maxSequenceLength.toNat) :
    greedy B.logits prompt n = greedy A.logits prompt n ∧ greedyLines B.logits prompt n = greedyLines A.logits prompt n := by
  induction n with
  | zero => exact ⟨rfl, rfl⟩
  | succ n ih =>
    obtain ⟨htokens, hlines⟩ := ih (by omega)
    have hlast := hlogits _ (greedy_accepted hne hvalid (show prompt.length + n ≤ _ by omega))
    rw [greedy_succ, greedy_succ, greedyLines, greedyLines, htokens, hlines, hlast]
    exact ⟨rfl, rfl⟩

omit [Scalar α] in
theorem last_row_ok {logits : List α} {n : Nat} {count : UInt64} {f : Nat → Nat → α} (h : IsMat logits n count.toNat f)
    (hn : 0 < n) : last logits count = .ok ((List.range count.toNat).map (f (n - 1))) := by
  have hrow : n - 1 < n := by omega
  have hle := row_end_le (C := count.toNat) hrow
  have hlast : n * count.toNat - count.toNat = (n - 1) * count.toNat := by rw [Nat.sub_mul, Nat.one_mul]
  rw [last_ok (by rw [h.1]; omega), h.1, hlast]
  refine congrArg Except.ok (IsVec.eq_map ⟨?_, fun c hc => ?_⟩)
  · rw [List.length_drop, h.1, ← hlast]
    omega
  · rw [List.getElem?_drop]
    exact h.2 _ hrow c hc

/-- The row full mode dumps. -/
theorem generateFull_dump {options : Gpt2Runtime.Options} {model : GPT2Model α} {out : Output α}
    (h : generateFull options model = .ok out) (hdump : options.dumpLastLogits = true)
    (hacc : Accepted model.weights.config out.tokens) : out.dump = some (paddedLogits model out.tokens) := by
  unfold generateFull at h
  obtain ⟨s, -, h⟩ := bind_eq_ok.1 h
  obtain ⟨workspace, hfinal, h⟩ := bind_eq_ok.1 h
  obtain ⟨dump, hrow, h⟩ := bind_eq_ok.1 h
  obtain rfl := Except.ok.inj h
  obtain ⟨ws, hws, -, hlogits⟩ := forward_ok hacc s.workspace
  rw [finalForward, if_pos (.inr hdump), hws, thrown, Except.ok.injEq] at hfinal
  subst hfinal
  rw [dumpFull, if_pos hdump, last_row_ok hlogits (List.length_pos_iff.2 hacc.nonempty), ok_bind] at hrow
  obtain ⟨values, hbinary, hrow⟩ := bind_eq_ok.1 hrow
  obtain ⟨-, hvalues⟩ := throwIf_bind_ok.1 hbinary
  rw [← Except.ok.inj hrow, ← Except.ok.inj hvalues]
  rfl

theorem checkContext_request {options : Options} {config : ModelConfig} : checkContext options.request config = .ok () ↔
    options.tokens.length + options.maxNewTokens.toNat ≤ config.maxSequenceLength.toNat := checkContext_ok_iff

variable {files : Files} {host : Host (Executor α)} {options : Options} {model : GPT2Model α}

theorem generateIn_full (hmode : options.mode = .full) (hne : options.tokens ≠ [])
    (hcontext : checkContext options.request model.weights.config = .ok ())
    (hval : ∀ t ∈ options.tokens, TokenValid model.weights.config t) :
    generateIn options model host = .ok (expected options model) := by
  obtain ⟨row, -, hok⟩ := generateFull_ok (show options.request.tokens ≠ [] from hne) hcontext hval
  rw [generateIn, hmode]
  refine hok.trans (congrArg Except.ok ?_)
  have hacc := greedy_accepted hne hval (checkContext_request.1 hcontext)
  by_cases hdump : options.dumpLastLogits = ""
  · simp [expected, dumped, hdump, Options.request, tokensAfter]
  · have hrequest : options.request.dumpLastLogits = true := decide_eq_true hdump
    have hrow := generateFull_dump hok hrequest hacc
    simp only [hrequest, if_true] at hrow
    simp only [expected, dumped, hrow, hdump, hmode, hrequest, if_true, if_false]
    rfl

theorem generateIn_cached (hserves : host.Serves) (hgrants : host.Grants options.threads)
    (hmode : options.mode = .cached) (hne : options.tokens ≠ []) (hthreads : options.threads ≠ 0)
    (hcontext : checkContext options.request model.weights.config = .ok ())
    (hval : ∀ t ∈ options.tokens, TokenValid model.weights.config t)
    (hroom : consumedCount options.request ≤ (options.request.sessionCapacity model.weights.config).toNat)
    (hfits : CapacityFits model.weights.config (options.request.sessionCapacity model.weights.config)) :
    generateIn options model host = .ok (expected options model) := by
  have hok := generateCached_ok (show options.request.tokens ≠ [] from hne) hcontext hthreads hserves hgrants hval hroom hfits
  rw [generateIn, hmode]
  refine hok.trans (congrArg Except.ok ?_)
  by_cases hdump : options.dumpLastLogits = ""
  · simp [expected, dumped, hdump, Options.request, tokensAfter]
  · have hrequest : options.request.dumpLastLogits = true := decide_eq_true hdump
    simp only [expected, dumped, hdump, hmode, hrequest, if_true, if_false]
    rfl

/-- The options a run starts with. -/
structure Usable (options : Options) : Prop where
  tokens : options.tokens ≠ []
  threads : options.threads ≠ 0

theorem Scan.Consistent.usable {s : Scan} (h : s.Consistent) : Usable s.options := ⟨h.tokens, h.threads⟩

/-- **The generation of a run returns exactly if the run completes**, and then it leaves what is expected. -/
theorem generateIn_ok_iff (hserves : host.Serves) (h : Usable options)
    (hcontext : checkContext options.request model.weights.config = .ok ()) {out : Output α} :
    generateIn options model host = .ok out ↔ (∀ t ∈ options.tokens, TokenValid model.weights.config t) ∧
      (options.mode = .cached → consumedCount options.request ≤ (options.request.sessionCapacity model.weights.config).toNat ∧
        CapacityFits model.weights.config (options.request.sessionCapacity model.weights.config) ∧
        host.Grants options.threads) ∧
      out = expected options model := by
  cases hmode : options.mode with
  | full =>
    constructor
    · intro hout
      have hreturns : ∃ out, generateFull options.request model = .ok out := ⟨out, by rwa [generateIn, hmode] at hout⟩
      have hval := (generateFull_ok_iff h.tokens hcontext).1 hreturns
      rw [generateIn_full hmode h.tokens hcontext hval, Except.ok.injEq] at hout
      exact ⟨hval, fun hno => absurd hno (by decide), hout.symm⟩
    · rintro ⟨hval, -, rfl⟩
      exact generateIn_full hmode h.tokens hcontext hval
  | cached =>
    constructor
    · intro hout
      have hreturns : ∃ out, generateCached options.request model host = .ok out := ⟨out, by rwa [generateIn, hmode] at hout⟩
      obtain ⟨hval, hroom, hfits, hgrants⟩ := (generateCached_ok_iff h.tokens hcontext h.threads hserves).1 hreturns
      rw [generateIn_cached hserves hgrants hmode h.tokens h.threads hcontext hval hroom hfits, Except.ok.injEq] at hout
      exact ⟨hval, fun _ => ⟨hroom, hfits, hgrants⟩, hout.symm⟩
    · rintro ⟨hval, hcapacity, rfl⟩
      obtain ⟨hroom, hfits, hgrants⟩ := hcapacity rfl
      exact generateIn_cached hserves hgrants hmode h.tokens h.threads hcontext hval hroom hfits

omit [Scalar α] in
theorem openDump_ok_iff {path : String} {dump : Option (List α)} (h : dump = none ↔ path = "") :
    openDump files path dump = .ok () ↔ (path ≠ "" → files.writable path = true) := by
  cases dump with
  | none => simp [openDump, h.1 rfl]
  | some values =>
    have hne : path ≠ "" := fun hpath => absurd (h.2 hpath) (by simp)
    simp [openDump, throwIf_ok_iff, hne]

theorem dumped_eq_none_iff : dumped options model = none ↔ options.dumpLastLogits = "" := by
  unfold dumped
  split <;> simp_all

/-- **A run returns exactly if it completes.** -/
theorem generate_ok_iff (hserves : host.Serves) (h : Usable options) {out : Output α} :
    generate files host options = .ok out ↔ ∃ model, Completes files host options model ∧ out = expected options model := by
  unfold generate
  constructor
  · intro hout
    obtain ⟨model, hload, hout⟩ := bind_eq_ok.1 hout
    obtain ⟨⟨⟩, hcontext, hout⟩ := bind_eq_ok.1 hout
    obtain ⟨out', hgenerate, hout⟩ := bind_eq_ok.1 hout
    obtain ⟨⟨⟩, hopen, hout⟩ := bind_eq_ok.1 hout
    obtain rfl := Except.ok.inj hout
    obtain ⟨hval, hcapacity, rfl⟩ := (generateIn_ok_iff hserves h hcontext).1 hgenerate
    have hdump := (openDump_ok_iff dumped_eq_none_iff).1 hopen
    exact ⟨model, ⟨loadModel_ok_iff.1 hload, hval, checkContext_request.1 hcontext, fun hmode => (hcapacity hmode).1,
      fun hmode => (hcapacity hmode).2.1, fun hmode => (hcapacity hmode).2.2, hdump⟩, rfl⟩
  · rintro ⟨model, hcompletes, rfl⟩
    have hcontext := checkContext_request.2 hcompletes.context
    have hgenerate := (generateIn_ok_iff hserves h hcontext).2
      ⟨hcompletes.valid, fun hmode => ⟨hcompletes.room hmode, hcompletes.capacity hmode, hcompletes.executor hmode⟩, rfl⟩
    have hopen : openDump files options.dumpLastLogits (expected options model).dump = .ok () :=
      (openDump_ok_iff dumped_eq_none_iff).2 hcompletes.dump
    simp only [loadModel_ok_iff.2 hcompletes.loads, hcontext, hgenerate, hopen, ok_bind, pure_ok]

theorem success_iff (hserves : host.Serves) {program : String} {arguments : List String} {text : String}
    {dump : Option (List α)} : main files host program arguments = .success text dump ↔
      ∃ s model, Describes arguments s ∧ s.Consistent ∧ Completes files host s.options model ∧
        text = stdout s.options (expected s.options model) ∧ dump = dumped s.options model := by
  unfold main
  constructor
  · intro h
    split at h
    · cases h
    · cases h
    · next options hparse =>
      obtain ⟨s, hdescribes, hconsistent, rfl⟩ := parseOptions_ok_iff.1 hparse
      split at h
      · cases h
      · next out hout =>
        obtain ⟨model, hcompletes, rfl⟩ := (generate_ok_iff hserves hconsistent.usable).1 hout
        cases h
        exact ⟨s, model, hdescribes, hconsistent, hcompletes, rfl, rfl⟩
  · rintro ⟨s, model, hdescribes, hconsistent, hcompletes, rfl, rfl⟩
    simp only [parseOptions_ok_iff.2 ⟨s, hdescribes, hconsistent, rfl⟩,
      (generate_ok_iff hserves hconsistent.usable).2 ⟨model, hcompletes, rfl⟩]
    rfl

/-- The tiny checkpoint at every path. -/
def tinyFiles : Files where
  checkpoint _ := some ⟨writeCheckpoint 1 tinyConfig (List.replicate 31 1), by rw [length_writeCheckpoint]; decide⟩
  writable _ := true

def tinyCommand : Generate.Options := { checkpoint := "tiny.bin", tokens := [0], maxNewTokens := 1, threads := 2, mode := .cached }

theorem tinyCommand_consistent {tokens : List Int32} {threads : UInt64} (htokens : tokens ≠ []) (hthreads : threads ≠ 0) :
    Scan.Consistent ⟨{ tinyCommand with tokens, threads }, true⟩ where
  checkpoint := show "tiny.bin" ≠ "" by decide
  tokens := htokens
  greedy _ := rfl
  capacity h := nomatch h
  threads := hthreads
  serial h := nomatch h

theorem tinyCommand_completes (start : UInt64 → Executor Int) :
    Completes tinyFiles (.granting start) tinyCommand tinyModel where
  loads := ⟨_, rfl, loadCheckpoint_writeCheckpoint tinyConfig_writable rfl rfl⟩
  valid := by decide
  context := by decide
  room _ := by decide
  capacity _ := by refine ⟨?_, ?_, ?_⟩ <;> decide
  executor _ := Host.grants_granting _ _
  dump h := absurd rfl h

/-- The line of a step, `count` steps later. -/
def StepLine.later (count : UInt64) (line : StepLine) : StepLine := { line with step := count + line.step }

end Generate

end Gpt2Runtime
