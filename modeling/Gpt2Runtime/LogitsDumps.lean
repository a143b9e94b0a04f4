import Gpt2Runtime.CompareLogits
import Gpt2Runtime.GenerateMain
/-
# The logits a run leaves (`app/gpt2_generate.cpp:136-155`)

| here | there |
| --- | --- |
| `dumpBytes`             | the bytes `dump_binary` writes (`gpt2_generate.cpp:146-147`), the host being little-endian (`model.cpp:188`) |
| `Generate.Next`         | `greedy_token` (`:152-155`): the first of the largest logits |

`toBits` is the object representation of a `float`. A dump holds the logits a run stopped at: read back, they are the
values dumped, and their largest is the token the run would have gone on with.
-/

namespace Gpt2Runtime

open LittleEndian Loop InferenceSession

variable {α β : Type}

def dumpBytes (toBits : α → BitVec 32) (values : List α) : List UInt8 := encodeWords (values.map toBits)

theorem length_dumpBytes (toBits : α → BitVec 32) (values : List α) : (dumpBytes toBits values).length = 4 * values.length := by
  rw [dumpBytes, length_encodeWords, List.length_map]

theorem take_dumpBytes (toBits : α → BitVec 32) (values : List α) (n : Nat) :
    (dumpBytes toBits values).take (4 * n) = dumpBytes toBits (values.take n) := by
  rw [dumpBytes, take_encodeWords, ← List.map_take, dumpBytes]

theorem floats_dumpBytes [PyFloat β] (toBits : α → BitVec 32) (values : List α) :
    CompareLogits.floats β (dumpBytes toBits values) = values.map fun x => PyFloat.unpack (toBits x) := by
  rw [CompareLogits.floats, dumpBytes, decodeWords_encodeWords, List.map_map]
  rfl

variable [Scalar α]

theorem maxElementFrom_eq (best : Nat) (largest : α) (i : Nat) (xs : List α) :
    maxElementFrom best largest i xs = (Maximum.scan Scalar.lt (best, largest) i xs).1 := by
  induction xs generalizing best largest i with
  | nil => rfl
  | cons x xs ih =>
    rw [maxElementFrom, Maximum.scan]
    cases Scalar.lt largest x with
    | true => exact ih i x (i + 1)
    | false => exact ih best largest (i + 1)

theorem maxElement_eq (logits : List α) : maxElement logits = Maximum.position Scalar.lt logits := by
  cases logits with
  | nil => rfl
  | cons x xs => exact maxElementFrom_eq 0 x 1 xs

/-- What Python finds in the bytes of some logits is what `greedy_token` finds in the logits. -/
theorem argmax_dumpBytes [PyFloat β] {toBits : α → BitVec 32}
    (hlt : ∀ x y : α, PyFloat.lt (PyFloat.unpack (toBits x) : β) (PyFloat.unpack (toBits y)) = Scalar.lt x y) (logits : List α) :
    CompareLogits.argmax (CompareLogits.floats β (dumpBytes toBits logits)) = maxElement logits := by
  rw [floats_dumpBytes, CompareLogits.argmax, Maximum.position_map hlt, maxElement_eq]

namespace Generate

/-- The token is the first of the largest logits. -/
def Next (logits : List α) (token : Int32) : Prop :=
  ∃ x, 0 ≤ token.toInt ∧ logits[token.toInt.toNat]? = some x ∧ (∀ y ∈ logits, Scalar.lt x y = false) ∧
    ∀ j < token.toInt.toNat, ∀ y, logits[j]? = some y → Scalar.lt y x = true

variable {files : Files} {host : Host (Executor α)} {options : Options} {model : GPT2Model α}

theorem next_greedyToken (P : List Int32) (h : Maximum.Ordered Scalar.lt (model.logits P)) :
    Next (model.logits P) (greedyToken (model.logits P)) := by
  have hw := model.wellFormed
  have hlength : (model.logits P).length = model.weights.config.vocabularySize.toNat := by
    rw [GPT2Model.logits, GPT2Model.machine, List.length_map, List.length_range]
  have hpos := hw.valid.vocabularySize
  have hlt : model.weights.config.vocabularySize.toNat < 2 ^ 31 := Nat.lt_of_le_of_lt hw.valid.padded_ge hw.vocabulary_lt
  have hne : model.logits P ≠ [] := by
    intro hnil
    rw [hnil, List.length_nil] at hlength
    omega
  have hmax := maxElement_lt hne
  have hint : (greedyToken (model.logits P)).toInt = maxElement (model.logits P) := Int32.toInt_ofNat_of_lt (by omega)
  obtain ⟨x, hx, hle, hfirst⟩ := Maximum.position_spec h hne
  rw [← maxElement_eq] at hx hfirst
  exact ⟨x, by rw [hint]; exact Int.natCast_nonneg _, by rwa [hint, Int.toNat_natCast], hle, by rwa [hint, Int.toNat_natCast]⟩

/-! ## The tokens of a run -/

theorem greedy_take (logits : List Int32 → List α) (prompt : List Int32) {i n : Nat} (h : i ≤ n) :
    (greedy logits prompt n).take (prompt.length + i) = greedy logits prompt i := by
  induction n with
  | zero =>
    obtain rfl : i = 0 := by omega
    exact List.take_of_length_le (Nat.le_refl _)
  | succ n ih =>
    by_cases hi : i = n + 1
    · rw [hi, List.take_of_length_le (by rw [length_greedy])]
    · rw [greedy_succ, List.take_append_of_le_length (by rw [length_greedy]; omega), ih (by omega)]

theorem greedy_getElem? (logits : List Int32 → List α) (prompt : List Int32) {i n : Nat} (h : i < n) :
    (greedy logits prompt n)[prompt.length + i]? = some (greedyToken (logits (greedy logits prompt i))) := by
  have hlast : (greedy logits prompt (i + 1))[prompt.length + i]? = some (greedyToken (logits (greedy logits prompt i))) := by
    rw [greedy_succ, List.getElem?_append_right (by rw [length_greedy]), length_greedy, Nat.sub_self]
    rfl
  rw [← greedy_take logits prompt (show i + 1 ≤ n from h), List.getElem?_take_of_lt (by omega)] at hlast
  exact hlast

theorem greedyLines_getElem? (logits : List Int32 → List α) (prompt : List Int32) {i n : Nat} (h : i < n) :
    (greedyLines logits prompt n)[i]? =
      some ⟨UInt64.ofNat (i + 1), UInt64.ofNat (prompt.length + i), greedyToken (logits (greedy logits prompt i))⟩ := by
  have hlength : ∀ n, (greedyLines logits prompt n).length = n := by
    intro n
    induction n with
    | zero => rfl
    | succ n ih => rw [greedyLines, List.length_append, ih, List.length_singleton]
  induction n with
  | zero => omega
  | succ n ih =>
    rw [greedyLines]
    by_cases hi : i = n
    · subst hi
      rw [List.getElem?_append_right (by rw [hlength]), hlength, Nat.sub_self]
      rfl
    · rw [List.getElem?_append_left (by rw [hlength]; omega), ih (by omega)]

/-- **Every token of a run is what `forward` asks for**: in both modes and on any number of threads, the tokens are the
prompt and then, step by step, the first of the largest real logits `forward` computes on all tokens before it, if
these compare like numbers; the printed line has the step, the length before it and the token. -/
theorem tokens_follow_forward (hhost : host.Realizes)
    (h : Usable options) {out : Output α} (hout : generate files host options = .ok out) :
    ∃ model : GPT2Model α, Loads files options.checkpoint model ∧ out.tokens.take options.tokens.length = options.tokens ∧
      out.tokens.length = options.tokens.length + options.maxNewTokens.toNat ∧
      ∀ i < options.maxNewTokens.toNat, ∃ ws logits token,
        model.forward (out.tokens.take (options.tokens.length + i)) .empty = .ok ws ∧
        lastRealLogits model.weights.config ws.logits = .ok logits ∧
        out.tokens[options.tokens.length + i]? = some token ∧
        out.steps[i]? = some ⟨UInt64.ofNat (i + 1), UInt64.ofNat (options.tokens.length + i), token⟩ ∧
        (Maximum.Ordered Scalar.lt logits → Next logits token) := by
  have hserves := hhost.serves
  obtain ⟨model, hcompletes, rfl⟩ := (generate_ok_iff hserves h).1 hout
  have hcontext := hcompletes.context
  refine ⟨model, hcompletes.loads, ?_, length_greedy _ _ _, fun i hi => ?_⟩
  · exact greedy_take model.logits options.tokens (Nat.zero_le _)
  · have hacc := greedy_accepted (i := i) h.tokens hcompletes.valid (by omega)
    obtain ⟨ws, hws, hlogits⟩ := machine_logits model model.weights.config.maxSequenceLength hacc .empty
    refine ⟨ws, _, _, ?_, hlogits, greedy_getElem? model.logits options.tokens hi, greedyLines_getElem? model.logits options.tokens hi,
      fun hordered => next_greedyToken _ hordered⟩
    rw [← hws]
    exact congrArg (model.forward · .empty) (greedy_take model.logits options.tokens (Nat.le_of_lt hi))

theorem tokens_follow_forward_tiny : ∃ (start : UInt64 → Executor Int) (out : Output Int) (token : Int32),
    generate tinyFiles (.granting start) tinyCommand = .ok out ∧ out.tokens[1]? = some token ∧ out.steps[0]? = some ⟨1, 1, token⟩ := by
  obtain ⟨start, hhost⟩ := exists_host Int
  have hserves := hhost.serves
  have husable : Usable tinyCommand := ⟨by decide, by decide⟩
  have hout := (generate_ok_iff hserves husable).2 ⟨tinyModel, tinyCommand_completes start, rfl⟩
  obtain ⟨_, -, -, -, hsteps⟩ := tokens_follow_forward hhost husable hout
  obtain ⟨_, _, token, -, -, htoken, hline, -⟩ := hsteps 0 (by decide)
  exact ⟨start, _, token, hout, htoken, hline⟩

/-! ## The dump of a run -/

/-- The values a mode dumps. -/
def dumpCount (options : Options) (config : ModelConfig) : Nat :=
  match options.mode with
  | .full => config.paddedVocabularySize.toNat
  | .cached => config.vocabularySize.toNat

/-- The logits a run stops at are the first values of its dump. -/
theorem dumped_spec (options : Options) (model : GPT2Model α) {values : List α} (h : dumped options model = some values) :
    values.length = dumpCount options model.weights.config ∧
      values.take model.weights.config.vocabularySize.toNat = model.logits (tokensAfter options model) := by
  have hlength : (model.logits (tokensAfter options model)).length = model.weights.config.vocabularySize.toNat := by
    rw [GPT2Model.logits, GPT2Model.machine, List.length_map, List.length_range]
  unfold dumped at h
  unfold dumpCount
  split at h
  · cases h
  · obtain rfl := Option.some.inj h
    cases options.mode with
    | full => exact ⟨by rw [paddedLogits, List.length_map, List.length_range], take_paddedLogits model _⟩
    | cached => exact ⟨hlength, List.take_of_length_le (Nat.le_of_eq hlength)⟩

/-- **What a dump is good for.** The file of a run with a dump has four bytes for each logit, of the padded vocabulary in
full mode and of the real one in cached mode. Read back it gives the values dumped, the first of which are the real
logits of `forward` on the final tokens. Any run of as many steps leaves the same bytes for them, and any run of one
step more goes on with the token Python finds largest among them. -/
theorem dump_predicts [PyFloat β] {toBits : α → BitVec 32} (hbits : ∀ x : α, Scalar.ofBits (toBits x) = x)
    (hlt : ∀ x y : α, PyFloat.lt (PyFloat.unpack (toBits x) : β) (PyFloat.unpack (toBits y)) = Scalar.lt x y)
    (hhost : host.Realizes) (h : Usable options)
    (hdump : options.dumpLastLogits ≠ "") {out : Output α} (hout : generate files host options = .ok out) :
    ∃ (model : GPT2Model α) (values : List α), Loads files options.checkpoint model ∧ out.dump = some values ∧
      (dumpBytes toBits values).length = 4 * dumpCount options model.weights.config ∧
      (decodeWords (dumpBytes toBits values)).map Scalar.ofBits = values ∧
      (∃ ws, model.forward out.tokens .empty = .ok ws ∧
        lastRealLogits model.weights.config ws.logits = .ok (values.take model.weights.config.vocabularySize.toNat)) ∧
      ∀ (other : Options) (out' : Output α), Usable other → other.checkpoint = options.checkpoint →
        other.tokens = options.tokens → generate files host other = .ok out' →
        (other.maxNewTokens = options.maxNewTokens → ∀ values', out'.dump = some values' →
          (dumpBytes toBits values').take (4 * model.weights.config.vocabularySize.toNat) =
            (dumpBytes toBits values).take (4 * model.weights.config.vocabularySize.toNat)) ∧
        (other.maxNewTokens.toNat = options.maxNewTokens.toNat + 1 →
          out'.tokens = out.tokens ++ [Int32.ofNat (CompareLogits.argmax (CompareLogits.floats β
            ((dumpBytes toBits values).take (4 * model.weights.config.vocabularySize.toNat))))]) := by
  have hserves := hhost.serves
  obtain ⟨model, hcompletes, rfl⟩ := (generate_ok_iff hserves h).1 hout
  obtain ⟨values, hvalues⟩ := Option.ne_none_iff_exists'.1 (mt dumped_eq_none_iff.1 hdump : dumped options model ≠ none)
  obtain ⟨hlength, hreal⟩ := dumped_spec options model hvalues
  refine ⟨model, values, hcompletes.loads, hvalues, ?_, ?_, ?_, ?_⟩
  · rw [length_dumpBytes, hlength]
  · rw [dumpBytes, decodeWords_encodeWords, List.map_map]
    exact (List.map_congr_left fun x _ => hbits x).trans (List.map_id _)
  · obtain ⟨ws, hws, hlogits⟩ := machine_logits model model.weights.config.maxSequenceLength
      (greedy_accepted h.tokens hcompletes.valid hcompletes.context) .empty
    rw [hreal]
    exact ⟨ws, hws, hlogits⟩
  · intro other out' hother hcheckpoint htokens hout'
    obtain ⟨model', hcompletes', rfl⟩ := (generate_ok_iff hserves hother).1 hout'
    have hloads := hcompletes'.loads
    rw [hcheckpoint] at hloads
    obtain rfl := hcompletes.loads.unique hloads
    constructor
    · intro hcount values' hvalues'
      have hsame : tokensAfter other model = tokensAfter options model := by rw [tokensAfter, tokensAfter, htokens, hcount]
      rw [take_dumpBytes, take_dumpBytes, hreal, (dumped_spec other model hvalues').2, hsame]
    · intro hcount
      rw [take_dumpBytes, hreal, argmax_dumpBytes hlt]
      show greedy model.logits other.tokens other.maxNewTokens.toNat = _
      rw [htokens, hcount, greedy_succ]
      rfl

/-- Runs of as many steps dump the same values, if they dump as many. -/
theorem dumped_same {other : Options} (htokens : other.tokens = options.tokens) (hsteps : other.maxNewTokens = options.maxNewTokens)
    (hcount : dumpCount other model.weights.config = dumpCount options model.weights.config) {values values' : List α}
    (hvalues : dumped options model = some values) (hvalues' : dumped other model = some values') : values' = values := by
  have hafter : tokensAfter other model = tokensAfter options model := by rw [tokensAfter, tokensAfter, htokens, hsteps]
  have hreal := (dumped_spec other model hvalues').2
  rw [hafter, ← (dumped_spec options model hvalues).2] at hreal
  have hlength := (dumped_spec options model hvalues).1
  have hlength' := (dumped_spec other model hvalues').1
  unfold dumpCount at hcount hlength hlength'
  cases hmode : options.mode <;> cases hmode' : other.mode <;> simp only [hmode, hmode'] at hcount hlength hlength'
  case full.full =>
    unfold dumped at hvalues hvalues'
    split at hvalues
    · cases hvalues
    · split at hvalues'
      · cases hvalues'
      · rw [hmode, Option.some.injEq] at hvalues
        rw [hmode', Option.some.injEq, hafter] at hvalues'
        exact hvalues'.symm.trans hvalues
  all_goals
    rwa [List.take_of_length_le (by omega), List.take_of_length_le (by omega)] at hreal

/-- **The documented check passes.** The dumps of two runs on one checkpoint, one prompt and as many steps, in either
mode, with any capacity and on any number of threads, compare as equal, bit for bit if that is asked for, exactly if both
modes dump the expected number of logits, the logits are finite and the tolerances usable. -/
theorem dumps_compare [PyFloat β] (hexact : CompareLogits.Exact β) {toBits : α → BitVec 32}
    (hhost : host.Realizes) (h : Usable options)
    {other : Options} (h' : Usable other) (hcheckpoint : other.checkpoint = options.checkpoint)
    (htokens : other.tokens = options.tokens) (hsteps : other.maxNewTokens = options.maxNewTokens) {out out' : Output α}
    (hout : generate files host options = .ok out) (hout' : generate files host other = .ok out') {values values' : List α}
    (hvalues : out.dump = some values) (hvalues' : out'.dump = some values') {dumps : String → Option (List UInt8)}
    {args : CompareLogits.Args β} (hcandidate : dumps args.candidate = some (dumpBytes toBits values))
    (hreference : dumps args.reference = some (dumpBytes toBits values')) :
    ∃ model : GPT2Model α, Loads files options.checkpoint model ∧
      ((∃ report, CompareLogits.compare dumps args = .ok (report, .pass)) ↔
        args.expectedCount = dumpCount options model.weights.config ∧
        args.expectedCount = dumpCount other model.weights.config ∧
        (PyFloat.isFinite args.absoluteTolerance = true ∧ PyFloat.lt args.absoluteTolerance 0 = false) ∧
        (PyFloat.isFinite args.relativeTolerance = true ∧ PyFloat.lt args.relativeTolerance 0 = false) ∧
        ∀ x ∈ values, PyFloat.isFinite (PyFloat.unpack (toBits x) : β) = true) := by
  have hserves := hhost.serves
  obtain ⟨model, hcompletes, rfl⟩ := (generate_ok_iff hserves h).1 hout
  obtain ⟨model', hcompletes', rfl⟩ := (generate_ok_iff hserves h').1 hout'
  have hloads := hcompletes'.loads
  rw [hcheckpoint] at hloads
  obtain rfl := hcompletes.loads.unique hloads
  replace hvalues : dumped options model = some values := hvalues
  replace hvalues' : dumped other model = some values' := hvalues'
  have hlength := (dumped_spec options model hvalues).1
  have hlength' := (dumped_spec other model hvalues').1
  have hbytes : ((dumpBytes toBits values).length : Int) = 4 * (dumpCount options model.weights.config : Int) := by
    rw [length_dumpBytes, hlength]
    push_cast
    rfl
  have hbytes' : ((dumpBytes toBits values').length : Int) = 4 * (dumpCount other model.weights.config : Int) := by
    rw [length_dumpBytes, hlength']
    push_cast
    rfl
  have hpos : 0 < dumpCount options model.weights.config := by
    have hreal := model.wellFormed.valid.vocabularySize
    have hpadded := model.wellFormed.valid.padded_ge
    unfold dumpCount
    split <;> omega
  have hread : ∀ x, x ∈ CompareLogits.floats β (dumpBytes toBits values) ↔ ∃ y ∈ values, PyFloat.unpack (toBits y) = x := by
    intro x
    rw [floats_dumpBytes, List.mem_map]
  refine ⟨model, hcompletes.loads, ?_⟩
  constructor
  · rintro ⟨report, hpass⟩
    obtain ⟨candidate, reference, hcompares, -⟩ := CompareLogits.compare_ok_iff.1 hpass
    have hlengthC := hcompares.candidate_length
    have hlengthR := hcompares.reference_length
    obtain rfl := Option.some.inj (hcandidate.symm.trans hcompares.reads_candidate)
    obtain rfl := Option.some.inj (hreference.symm.trans hcompares.reads_reference)
    have hcount : args.expectedCount = dumpCount options model.weights.config := by omega
    have hcount' : args.expectedCount = dumpCount other model.weights.config := by omega
    obtain rfl := dumped_same htokens hsteps (by omega) hvalues hvalues'
    obtain ⟨-, -, habsolute, hrelative, hfinite⟩ := (CompareLogits.compare_equal_iff hexact hcandidate hreference).1 ⟨report, hpass⟩
    exact ⟨hcount, hcount', habsolute, hrelative, fun y hy => hfinite _ ((hread _).2 ⟨y, hy, rfl⟩)⟩
  · rintro ⟨hcount, hcount', habsolute, hrelative, hfinite⟩
    obtain rfl := dumped_same htokens hsteps (by omega) hvalues hvalues'
    refine (CompareLogits.compare_equal_iff hexact hcandidate hreference).2 ⟨by omega, by omega, habsolute, hrelative, fun x hx => ?_⟩
    obtain ⟨y, hy, rfl⟩ := (hread x).1 hx
    exact hfinite y hy

end Generate

/-! ## A representation -/

/-- Bit patterns in place of floats: a representation that loses nothing. -/
structure Pattern where
  bits : BitVec 32
deriving DecidableEq

instance : Scalar Pattern where
  zero := ⟨0⟩
  one := ⟨1⟩
  add x y := ⟨x.bits + y.bits⟩
  sub x y := ⟨x.bits - y.bits⟩
  mul x y := ⟨x.bits * y.bits⟩
  div x y := ⟨x.bits / y.bits⟩
  ofBits b := ⟨b⟩
  ofSize n := ⟨BitVec.ofNat 32 n⟩
  half := ⟨0⟩
  epsilon := ⟨1⟩
  geluCubic := ⟨1⟩
  twoOverPi := ⟨1⟩
  lowest := ⟨0⟩
  sqrt x := x
  exp x := x
  tanh x := x
  lt x y := decide (x.bits < y.bits)
  eq x y := decide (x = y)

instance : PyFloat Pattern where
  unpack b := ⟨b⟩
  millionth := ⟨0⟩
  abs x := x
  lt := Scalar.lt
  isFinite _ := true

namespace Generate

theorem payload_length : (List.replicate 31 (1 : BitVec 32)).length = ParameterLayout.parameterCount tinyConfig := rfl

theorem payload_fits : 1024 + 4 * (List.replicate 31 (1 : BitVec 32)).length < 2 ^ 63 := by decide

def patternModel : GPT2Model Pattern := .written 1 tinyConfig (List.replicate 31 1) tinyConfig_writable payload_length payload_fits

def tinyDump : Options := { checkpoint := "tiny.bin", tokens := [0], dumpLastLogits := "logits.bin", mode := .full }

def tinyCachedDump : Options :=
  { checkpoint := "tiny.bin", tokens := [0], dumpLastLogits := "cached.bin", threads := 2, mode := .cached }

theorem patternModel_loads : Loads tinyFiles "tiny.bin" patternModel :=
  ⟨_, rfl, loadCheckpoint_writeCheckpoint tinyConfig_writable rfl rfl⟩

theorem tinyDump_completes (start : UInt64 → Executor Pattern) :
    Completes tinyFiles (.granting start) tinyDump patternModel where
  loads := patternModel_loads
  valid := by decide
  context := by decide
  room h := absurd h (by decide)
  capacity h := absurd h (by decide)
  executor h := absurd h (by decide)
  dump _ := rfl

theorem tinyCachedDump_completes (start : UInt64 → Executor Pattern) :
    Completes tinyFiles (.granting start) tinyCachedDump patternModel where
  loads := patternModel_loads
  valid := by decide
  context := by decide
  room _ := by decide
  capacity _ := by refine ⟨?_, ?_, ?_⟩ <;> decide
  executor _ := Host.grants_granting _ _
  dump _ := rfl

/-- Full mode dumps the two logits after token 0. -/
theorem dump_predicts_tiny : ∃ (start : UInt64 → Executor Pattern) (out : Output Pattern) (values : List Pattern),
    generate tinyFiles (.granting start) tinyDump = .ok out ∧ out.dump = some values ∧ (dumpBytes Pattern.bits values).length = 8 := by
  obtain ⟨start, hhost⟩ := exists_host Pattern
  have hserves := hhost.serves
  have husable : Usable tinyDump := ⟨by decide, by decide⟩
  have hout := (generate_ok_iff hserves husable).2 ⟨patternModel, tinyDump_completes start, rfl⟩
  have hlt : ∀ x y : Pattern, PyFloat.lt (PyFloat.unpack x.bits : Pattern) (PyFloat.unpack y.bits) = Scalar.lt x y := fun _ _ => rfl
  obtain ⟨model, values, hloads, hvalues, hlength, -⟩ :=
    dump_predicts (fun _ => rfl) hlt hhost husable (by decide) hout
  obtain rfl := hloads.unique (tinyDump_completes start).loads
  exact ⟨start, _, values, hout, hvalues, hlength⟩

theorem pattern_exact : CompareLogits.Exact Pattern where
  sub_self x _ := congrArg Pattern.mk (BitVec.sub_self x.bits)
  threshold _ _ _ _ _ _ _ _ := decide_eq_false (BitVec.not_lt_zero)

/-- The dumps of both modes pass bit for bit. -/
theorem dumps_compare_tiny : ∃ (start : UInt64 → Executor Pattern) (out out' : Output Pattern) (values values' : List Pattern)
    (report : CompareLogits.Report Pattern),
    generate tinyFiles (.granting start) tinyDump = .ok out ∧ out.dump = some values ∧
    generate tinyFiles (.granting start) tinyCachedDump = .ok out' ∧ out'.dump = some values' ∧
    CompareLogits.compare
      (fun path => some (dumpBytes Pattern.bits (if path = "cached.bin" then values' else values)))
      ⟨"full.bin", "cached.bin", 2, (0 : Pattern), (0 : Pattern), true⟩ = .ok (report, .pass) := by
  obtain ⟨start, hhost⟩ := exists_host Pattern
  have hserves := hhost.serves
  have husable : Usable tinyDump := ⟨by decide, by decide⟩
  have husable' : Usable tinyCachedDump := ⟨by decide, by decide⟩
  have hout := (generate_ok_iff hserves husable).2 ⟨patternModel, tinyDump_completes start, rfl⟩
  have hout' := (generate_ok_iff hserves husable').2 ⟨patternModel, tinyCachedDump_completes start, rfl⟩
  let values := paddedLogits patternModel (tokensAfter tinyDump patternModel)
  let values' := patternModel.logits (tokensAfter tinyCachedDump patternModel)
  let dumps := fun path => some (dumpBytes Pattern.bits (if path = "cached.bin" then values' else values))
  let args : CompareLogits.Args Pattern := ⟨"full.bin", "cached.bin", 2, 0, 0, true⟩
  have hcandidate : dumps args.candidate = some (dumpBytes Pattern.bits values) := rfl
  have hreference : dumps args.reference = some (dumpBytes Pattern.bits values') := rfl
  obtain ⟨model, hloads, hiff⟩ := dumps_compare pattern_exact hhost husable husable' rfl rfl rfl hout hout' rfl rfl hcandidate hreference
  obtain rfl := hloads.unique patternModel_loads
  obtain ⟨report, hreport⟩ := hiff.2 ⟨rfl, rfl, ⟨rfl, rfl⟩, ⟨rfl, rfl⟩, fun _ _ => rfl⟩
  exact ⟨start, _, _, values, values', report, hout, rfl, hout', rfl, hreport⟩

end Generate

end Gpt2Runtime
