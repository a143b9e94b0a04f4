import Gpt2Runtime.Lib.Arguments
import Gpt2Runtime.Generate
import Gpt2Runtime.TokenList
/-
# The command line of the generator (`app/gpt2_generate.cpp`)

| here | there |
| --- | --- |
| `ExecutionMode`, `Options` | `ExecutionMode`, `Options` (`gpt2_generate.cpp:24-37`) |
| `parseMode`             | `parse_mode` (`:81-89`) |
| `setOption`, `grammar`  | the branches of the loop of `parse_options` (`:94-119`) |
| `checkOptions`          | the checks behind the loop (`:120-132`) |
| `parseOptions`          | `parse_options` (`:91-134`) without `argv[0]`; `none` is the exit of `--help` |

`Setting` is what a user may write; `Spells` is how. The loop takes the settings from the left, so that the last one
of a kind counts.
-/

namespace Gpt2Runtime.CommandLine

theorem parseSize_ok_iff {text : List Char} {option : String} {n : UInt64} :
    parseSize text option = .ok n ↔ Numeral False text n.toNat := by
  have hsigned : ((0 : Int) < 0) = False := eq_false (by decide)
  unfold parseSize
  constructor
  · intro h
    obtain ⟨hcomplete, h⟩ := throwIf_bind_ok.1 h
    obtain ⟨hnum, hlo, hhi⟩ := fromChars_complete_iff.1 ⟨not_not.1 hcomplete, rfl⟩
    rw [hsigned] at hnum
    have hn := congrArg UInt64.toNat (Except.ok.inj h)
    rw [Word.toNat_ofNat_of_lt (by omega)] at hn
    rw [← hn, Int.toNat_of_nonneg hlo]
    exact hnum
  · intro h
    have hlt := Word.toNat_lt n
    obtain ⟨hcomplete, hvalue⟩ : (fromChars 0 (2 ^ 64 - 1) text).Complete ∧
        (fromChars 0 (2 ^ 64 - 1) text).value = n.toNat :=
      fromChars_complete_iff.2 ⟨hsigned ▸ h, by omega, by omega⟩
    simp only [throwIf_of_not (not_not.2 hcomplete), Loop.ok_bind, Loop.pure_ok, hvalue, Int.toNat_natCast, UInt64.ofNat_toNat]

theorem parseSize_error {text : List Char} {option : String} {e : Exc} (h : parseSize text option = .error e) :
    e = .invalidArgument ("invalid value for " ++ option) := by
  unfold parseSize at h
  rcases Loop.bind_eq_error.1 h with h | ⟨_, -, h⟩
  · exact throwIf_error h
  · cases h

end Gpt2Runtime.CommandLine

namespace Gpt2Runtime.Generate

open Loop Word CommandLine Arguments

inductive ExecutionMode where
  | full
  | cached
deriving DecidableEq, Repr

structure Options where
  checkpoint : String := ""
  tokens : List Int32 := []
  maxNewTokens : UInt64 := 0
  dumpLastLogits : String := ""
  capacity : Option UInt64 := none
  threads : UInt64 := 1
  mode : ExecutionMode := .full
deriving DecidableEq

/-- What the loop of `parse_options` has read. -/
structure Scan where
  options : Options := {}
  sawGreedy : Bool := false
deriving DecidableEq

def parseMode (text : String) : Except Exc ExecutionMode :=
  if text = "full" then .ok .full
  else if text = "cached" then .ok .cached
  else .error (.invalidArgument "--mode must be full or cached")

/-- The assignment a branch with `argv[++index]` makes. -/
def Scan.update (s : Scan) (set : Options → Options) : Scan := { s with options := set s.options }

/-- An argument that takes the next one as its value. -/
def setOption (argument : String) : Option (String → Scan → Except Exc Scan) :=
  if argument = "--checkpoint" then some fun value s =>
    .ok (s.update fun options => { options with checkpoint := value })
  else if argument = "--tokens" then some fun value s => do
    let tokens ← parseTokens value.toList
    pure (s.update fun options => { options with tokens })
  else if argument = "--max-new-tokens" then some fun value s => do
    let maxNewTokens ← parseSize value.toList "--max-new-tokens"
    pure (s.update fun options => { options with maxNewTokens })
  else if argument = "--dump-last-logits" then some fun value s =>
    .ok (s.update fun options => { options with dumpLastLogits := value })
  else if argument = "--mode" then some fun value s => do
    let mode ← parseMode value
    pure (s.update fun options => { options with mode })
  else if argument = "--capacity" then some fun value s => do
    let capacity ← parseSize value.toList "--capacity"
    pure (s.update fun options => { options with capacity := some capacity })
  else if argument = "--threads" then some fun value s => do
    let threads ← parseSize value.toList "--threads"
    pure (s.update fun options => { options with threads })
  else none

def setFlag (argument : String) : Option (Scan → Scan) :=
  if argument = "--greedy" then some fun s => { s with sawGreedy := true } else none

/-- No argument that takes a value is one of the others. -/
theorem setOption_apart {argument : String} (h : (setOption argument).isSome = true) :
    setFlag argument = none ∧ decide (argument = "--help") = false := by
  constructor
  · by_contra hflag
    unfold setFlag at hflag
    split at hflag
    · next heq =>
      subst heq
      exact absurd h (by decide)
    · exact hflag rfl
  · refine decide_eq_false fun heq => ?_
    subst heq
    exact absurd h (by decide)

def grammar : Arguments.Syntax String Scan Exc where
  valued := setOption
  single := setFlag
  help argument := decide (argument = "--help")
  unknown argument := .invalidArgument ("unknown or incomplete argument: " ++ argument)
  apart _ h := setOption_apart h

def checkOptions (s : Scan) : Except Exc Unit := do
  throwIf (s.options.checkpoint = "" ∨ s.options.tokens = []) (.invalidArgument "--checkpoint and --tokens are required")
  throwIf (s.sawGreedy = false ∧ s.options.maxNewTokens ≠ 0) (.invalidArgument "generation requires --greedy")
  throwIf (s.options.mode = .full ∧ s.options.capacity.isSome = true)
    (.invalidArgument "--capacity is only valid with --mode cached")
  throwIf (s.options.threads = 0 ∨ (s.options.mode = .full ∧ s.options.threads ≠ 1))
    (.invalidArgument "--threads must be positive and only cached mode may use more than one")

def parseOptions (arguments : List String) : Except Exc (Option Options) := do
  match ← grammar.parse {} arguments with
  | some s =>
    checkOptions s
    pure (some s.options)
  | none => pure none

/-! ## Settings -/

inductive Setting where
  | checkpoint (path : String)
  | tokens (ids : List Int32)
  | maxNewTokens (count : UInt64)
  | dumpLastLogits (path : String)
  | mode (chosen : ExecutionMode)
  | capacity (count : UInt64)
  | threads (count : UInt64)
  | greedy

def ExecutionMode.text : ExecutionMode → String
  | .full => "full"
  | .cached => "cached"

namespace Setting

/-- The words of a setting. -/
inductive Spells : Setting → List String → Prop
  | checkpoint (path : String) : Spells (.checkpoint path) ["--checkpoint", path]
  | tokens {text : String} {ids : List Int32} (h : Accepts text.toList ids) : Spells (.tokens ids) ["--tokens", text]
  | maxNewTokens {text : String} {count : UInt64} (h : Numeral False text.toList count.toNat) :
      Spells (.maxNewTokens count) ["--max-new-tokens", text]
  | dumpLastLogits (path : String) : Spells (.dumpLastLogits path) ["--dump-last-logits", path]
  | mode (chosen : ExecutionMode) : Spells (.mode chosen) ["--mode", chosen.text]
  | capacity {text : String} {count : UInt64} (h : Numeral False text.toList count.toNat) :
      Spells (.capacity count) ["--capacity", text]
  | threads {text : String} {count : UInt64} (h : Numeral False text.toList count.toNat) :
      Spells (.threads count) ["--threads", text]
  | greedy : Spells .greedy ["--greedy"]

def apply (setting : Setting) (s : Scan) : Scan :=
  match setting with
  | .checkpoint path => s.update fun options => { options with checkpoint := path }
  | .tokens ids => s.update fun options => { options with tokens := ids }
  | .maxNewTokens count => s.update fun options => { options with maxNewTokens := count }
  | .dumpLastLogits path => s.update fun options => { options with dumpLastLogits := path }
  | .mode chosen => s.update fun options => { options with mode := chosen }
  | .capacity count => s.update fun options => { options with capacity := some count }
  | .threads count => s.update fun options => { options with threads := count }
  | .greedy => { s with sawGreedy := true }

end Setting

theorem parseMode_ok_iff {text : String} {mode : ExecutionMode} : parseMode text = .ok mode ↔ text = mode.text := by
  unfold parseMode
  split
  · next h => subst h; cases mode <;> simp [ExecutionMode.text]
  · next h =>
    split
    · next h' => subst h'; cases mode <;> simp [ExecutionMode.text]
    · next h' => cases mode <;> simp [ExecutionMode.text, h, h']

theorem parseMode_error {text : String} {e : Exc} (h : parseMode text = .error e) : ∃ what, e = .invalidArgument what := by
  unfold parseMode at h
  split at h
  · cases h
  · split at h
    · cases h
    · exact ⟨_, (Except.error.inj h).symm⟩

theorem reads_setting {setting : Setting} {words : List String} (s : Scan) (h : setting.Spells words) :
    grammar.Reads s words (setting.apply s) := by
  cases h with
  | checkpoint path => exact .valued rfl rfl .nil
  | tokens h => exact .valued rfl (by simp only [parseTokens_ok_iff.2 h, ok_bind, pure_ok]; rfl) .nil
  | maxNewTokens h => exact .valued rfl (by simp only [parseSize_ok_iff.2 h, ok_bind, pure_ok]; rfl) .nil
  | dumpLastLogits path => exact .valued rfl rfl .nil
  | mode chosen => exact .valued rfl (by simp only [parseMode_ok_iff.2 rfl, ok_bind, pure_ok]; rfl) .nil
  | capacity h => exact .valued rfl (by simp only [parseSize_ok_iff.2 h, ok_bind, pure_ok]; rfl) .nil
  | threads h => exact .valued rfl (by simp only [parseSize_ok_iff.2 h, ok_bind, pure_ok]; rfl) .nil
  | greedy => exact .single rfl .nil

theorem setOption_setting {word value : String} {set : String → Scan → Except Exc Scan} {s s' : Scan}
    (hword : setOption word = some set) (hset : set value s = .ok s') :
    ∃ setting : Setting, setting.Spells [word, value] ∧ s' = setting.apply s := by
  unfold setOption at hword
  split at hword
  · next h =>
    subst h
    cases hword
    exact ⟨_, .checkpoint value, (Except.ok.inj hset).symm⟩
  split at hword
  · next h =>
    subst h
    cases hword
    obtain ⟨ids, hids, hset⟩ := bind_eq_ok.1 hset
    exact ⟨_, .tokens (parseTokens_ok_iff.1 hids), (Except.ok.inj hset).symm⟩
  split at hword
  · next h =>
    subst h
    cases hword
    obtain ⟨count, hcount, hset⟩ := bind_eq_ok.1 hset
    exact ⟨_, .maxNewTokens (parseSize_ok_iff.1 hcount), (Except.ok.inj hset).symm⟩
  split at hword
  · next h =>
    subst h
    cases hword
    exact ⟨_, .dumpLastLogits value, (Except.ok.inj hset).symm⟩
  split at hword
  · next h =>
    subst h
    cases hword
    obtain ⟨chosen, hmode, hupdate⟩ := bind_eq_ok.1 hset
    rw [parseMode_ok_iff] at hmode
    subst hmode
    exact ⟨_, .mode chosen, (Except.ok.inj hupdate).symm⟩
  split at hword
  · next h =>
    subst h
    cases hword
    obtain ⟨count, hcount, hset⟩ := bind_eq_ok.1 hset
    exact ⟨_, .capacity (parseSize_ok_iff.1 hcount), (Except.ok.inj hset).symm⟩
  split at hword
  · next h =>
    subst h
    cases hword
    obtain ⟨count, hcount, hset⟩ := bind_eq_ok.1 hset
    exact ⟨_, .threads (parseSize_ok_iff.1 hcount), (Except.ok.inj hset).symm⟩
  · cases hword

theorem setFlag_setting {word : String} {set : Scan → Scan} (s : Scan) (hword : setFlag word = some set) :
    ∃ setting : Setting, setting.Spells [word] ∧ set s = setting.apply s := by
  unfold setFlag at hword
  split at hword
  · next h =>
    subst h
    cases hword
    exact ⟨_, .greedy, rfl⟩
  · cases hword

def spelling : Arguments.Spelling grammar Setting where
  Spells := Setting.Spells
  apply := Setting.apply
  valued := setOption_setting
  single := setFlag_setting
  reads := reads_setting

theorem asks_iff {word : String} : grammar.Asks word ↔ word = "--help" := by
  constructor
  · exact fun h => of_decide_eq_true h.2
  · rintro rfl
    exact ⟨rfl, rfl⟩

/-- What a value or an argument is rejected with. -/
theorem Stops.invalidArgument {s : Scan} {rest : List String} {e : Exc} (h : grammar.Stops s rest e) :
    ∃ what, e = .invalidArgument what := by
  cases h with
  | incomplete | unknown => exact ⟨_, rfl⟩
  | @value word value rest set e hword hset =>
    change setOption word = some set at hword
    unfold setOption at hword
    repeat' split at hword
    all_goals cases hword
    · cases hset
    · rcases bind_eq_error.1 hset with h | ⟨_, -, h⟩
      · exact parseTokens_error h
      · cases h
    · rcases bind_eq_error.1 hset with h | ⟨_, -, h⟩
      · exact ⟨_, parseSize_error h⟩
      · cases h
    · cases hset
    · rcases bind_eq_error.1 hset with h | ⟨_, -, h⟩
      · exact parseMode_error h
      · cases h
    · rcases bind_eq_error.1 hset with h | ⟨_, -, h⟩
      · exact ⟨_, parseSize_error h⟩
      · cases h
    · rcases bind_eq_error.1 hset with h | ⟨_, -, h⟩
      · exact ⟨_, parseSize_error h⟩
      · cases h

/-! ## `parse_options` -/

/-- What the checks behind the loop ask for. -/
structure Scan.Consistent (s : Scan) : Prop where
  checkpoint : s.options.checkpoint ≠ ""
  tokens : s.options.tokens ≠ []
  greedy : s.options.maxNewTokens ≠ 0 → s.sawGreedy = true
  capacity : s.options.mode = .full → s.options.capacity = none
  threads : s.options.threads ≠ 0
  serial : s.options.mode = .full → s.options.threads = 1

theorem checkOptions_ok_iff {s : Scan} : checkOptions s = .ok () ↔ s.Consistent := by
  unfold checkOptions
  rw [throwIf_bind_ok, throwIf_bind_ok, throwIf_bind_ok, throwIf_ok_iff]
  simp only [not_or, not_and, not_not]
  constructor
  · rintro ⟨⟨hcheckpoint, htokens⟩, hgreedy, hcapacity, hthreads, hserial⟩
    refine ⟨hcheckpoint, htokens, fun hcount => ?_, fun hmode => ?_, hthreads, hserial⟩
    · by_contra hno
      exact hcount (hgreedy (by simpa using hno))
    · exact by simpa using hcapacity hmode
  · intro h
    refine ⟨⟨h.checkpoint, h.tokens⟩, fun hno => ?_, fun hmode => ?_, h.threads, h.serial⟩
    · by_contra hcount
      rw [h.greedy hcount] at hno
      cases hno
    · simp [h.capacity hmode]

theorem checkOptions_error {s : Scan} {e : Exc} (h : checkOptions s = .error e) : ∃ what, e = .invalidArgument what := by
  unfold checkOptions at h
  rcases bind_eq_error.1 h with h | ⟨_, -, h⟩
  · exact ⟨_, throwIf_error h⟩
  · rcases bind_eq_error.1 h with h | ⟨_, -, h⟩
    · exact ⟨_, throwIf_error h⟩
    · rcases bind_eq_error.1 h with h | ⟨_, -, h⟩ <;> exact ⟨_, throwIf_error h⟩

/-- The arguments spell settings, which leave `s`. -/
def Describes (arguments : List String) (s : Scan) : Prop :=
  ∃ settings words, List.Forall₂ Setting.Spells settings words ∧ words.flatten = arguments ∧
    s = settings.foldl (fun s setting => setting.apply s) {}

theorem reads_iff {arguments : List String} {s : Scan} : grammar.Reads {} arguments s ↔ Describes arguments s :=
  spelling.reads_iff

theorem parseOptions_ok_iff {arguments : List String} {options : Options} : parseOptions arguments = .ok (some options) ↔
    ∃ s, Describes arguments s ∧ s.Consistent ∧ s.options = options := by
  unfold parseOptions
  constructor
  · intro h
    obtain ⟨r, hparse, h⟩ := bind_eq_ok.1 h
    cases r with
    | none => cases h
    | some s =>
      obtain ⟨u, hcheck, h⟩ := bind_eq_ok.1 h
      exact ⟨s, reads_iff.1 (Syntax.parse_some_iff.1 hparse), checkOptions_ok_iff.1 hcheck, Option.some.inj (Except.ok.inj h)⟩
  · rintro ⟨s, hdescribes, hconsistent, rfl⟩
    rw [Syntax.parse_some_iff.2 (reads_iff.2 hdescribes), ok_bind]
    simp only [checkOptions_ok_iff.2 hconsistent, ok_bind, pure_ok]

theorem parseOptions_help_iff {arguments : List String} : parseOptions arguments = .ok none ↔
    ∃ before tail s, arguments = before ++ "--help" :: tail ∧ Describes before s := by
  have hparse : parseOptions arguments = .ok none ↔ grammar.parse {} arguments = .ok none := by
    unfold parseOptions
    constructor
    · intro h
      obtain ⟨r, hparse, h⟩ := bind_eq_ok.1 h
      cases r with
      | none => exact hparse
      | some s =>
        obtain ⟨u, -, h⟩ := bind_eq_ok.1 h
        cases h
    · intro h
      rw [h]
      rfl
  rw [hparse, Syntax.parse_none_iff]
  constructor
  · rintro ⟨before, word, tail, s, rfl, hreads, hasks⟩
    rw [asks_iff.1 hasks]
    exact ⟨before, tail, s, rfl, reads_iff.1 hreads⟩
  · rintro ⟨before, tail, s, rfl, hdescribes⟩
    exact ⟨before, _, tail, s, rfl, reads_iff.2 hdescribes, asks_iff.2 rfl⟩

theorem parseOptions_error {arguments : List String} {e : Exc} (h : parseOptions arguments = .error e) :
    ∃ what, e = .invalidArgument what := by
  unfold parseOptions at h
  rcases bind_eq_error.1 h with h | ⟨r, -, h⟩
  · obtain ⟨_, _, _, -, -, hstops⟩ := Syntax.parse_error_iff.1 h
    exact Stops.invalidArgument hstops
  · cases r with
    | none => cases h
    | some s =>
      rcases bind_eq_error.1 h with h | ⟨_, -, h⟩
      · exact checkOptions_error h
      · cases h

/-! ## Writing a command line -/

def printSize (n : UInt64) : String := String.ofList (Nat.toDigits 10 n.toNat)

theorem numeral_printSize (n : UInt64) : Numeral False (printSize n).toList n.toNat := by
  have hdigits : ∀ c ∈ Nat.toDigits 10 n.toNat, c.isDigit = true :=
    fun c hc => Nat.isDigit_of_mem_toDigits (by omega) (by omega) hc
  have hnum : Numeral False _ _ := Numeral.plain Nat.toDigits_ne_nil hdigits
  rw [Nat.ofDigitChars_ten_toDigits] at hnum
  rw [printSize, String.toList_ofList]
  exact hnum

namespace Setting

def words : Setting → List String
  | .checkpoint path => ["--checkpoint", path]
  | .tokens ids => ["--tokens", String.ofList (printTokens ids)]
  | .maxNewTokens count => ["--max-new-tokens", printSize count]
  | .dumpLastLogits path => ["--dump-last-logits", path]
  | .mode chosen => ["--mode", chosen.text]
  | .capacity count => ["--capacity", printSize count]
  | .threads count => ["--threads", printSize count]
  | .greedy => ["--greedy"]

theorem spells_words (setting : Setting) (h : setting ≠ .tokens []) : setting.Spells setting.words := by
  cases setting with
  | checkpoint path => exact .checkpoint path
  | tokens ids =>
    obtain ⟨token, rest, rfl⟩ := List.exists_cons_of_ne_nil fun hnil => h (congrArg Setting.tokens hnil)
    refine .tokens ?_
    rw [String.toList_ofList]
    exact accepts_iff.2 (.inl (tokenList_printTokens token rest))
  | maxNewTokens count => exact .maxNewTokens (numeral_printSize count)
  | dumpLastLogits path => exact .dumpLastLogits path
  | mode chosen => exact .mode chosen
  | capacity count => exact .capacity (numeral_printSize count)
  | threads count => exact .threads (numeral_printSize count)
  | greedy => exact .greedy

end Setting

namespace Options

/-- One setting for each field, and `--greedy`. -/
def settings (options : Options) : List Setting :=
  [.checkpoint options.checkpoint, .tokens options.tokens, .maxNewTokens options.maxNewTokens,
    .dumpLastLogits options.dumpLastLogits, .mode options.mode, .threads options.threads, .greedy] ++
    (options.capacity.map Setting.capacity).toList

/-- A command line that asks for these options. -/
def arguments (options : Options) : List String := (options.settings.map Setting.words).flatten

theorem describes_arguments {options : Options} (h : options.tokens ≠ []) : Describes options.arguments ⟨options, true⟩ := by
  refine ⟨options.settings, options.settings.map Setting.words, ?_, rfl, ?_⟩
  · rw [List.forall₂_map_right_iff, List.forall₂_same]
    intro setting hsetting
    refine setting.spells_words ?_
    rintro rfl
    obtain ⟨checkpoint, tokens, maxNewTokens, dumpLastLogits, capacity, threads, mode⟩ := options
    cases capacity <;> simp [settings] at hsetting <;> exact h hsetting
  · obtain ⟨checkpoint, tokens, maxNewTokens, dumpLastLogits, capacity, threads, mode⟩ := options
    cases capacity <;> rfl

/-- Written settings are read back. -/
theorem parse_arguments {options : Options} (h : Scan.Consistent ⟨options, true⟩) :
    parseOptions options.arguments = .ok (some options) :=
  parseOptions_ok_iff.2 ⟨⟨options, true⟩, options.describes_arguments h.tokens, h, rfl⟩

end Options

/-- **`parse_options` accepts exactly the command lines that spell consistent settings**, exits for `--help` exactly
when all before it was spelled, rejects everything else as an invalid argument, and reads every written command line
back. -/
theorem parseOptions_exact (arguments : List String) :
    (∀ options, parseOptions arguments = .ok (some options) ↔
      ∃ s, Describes arguments s ∧ s.Consistent ∧ s.options = options) ∧
    (parseOptions arguments = .ok none ↔ ∃ before tail s, arguments = before ++ "--help" :: tail ∧ Describes before s) ∧
    (∀ e, parseOptions arguments = .error e → ∃ what, e = .invalidArgument what) ∧
    ∀ options, Scan.Consistent ⟨options, true⟩ → parseOptions options.arguments = .ok (some options) :=
  ⟨fun _ => parseOptions_ok_iff, parseOptions_help_iff, fun _ => parseOptions_error,
    fun _ => Options.parse_arguments⟩

end Gpt2Runtime.Generate
