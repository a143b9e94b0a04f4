import Gpt2Runtime.BenchmarkCommand
/-
# The inspection of a checkpoint (`app/gpt2_inspect.cpp`)

| here | there |
| --- | --- |
| `usage`                 | `print_usage` (`gpt2_inspect.cpp:13-15`) |
| `Options`, `parseArguments` | the loop over the arguments (`:21-36`); `none` is the request for help |
| `loadWeights`           | `load_checkpoint` (`:42`), with the opening of the file (`model.cpp:188-191`) |
| `tensorLine`            | one line of the layout (`:56-66`) |
| `report`                | the lines of `main` (`:44-68`) |
| `main`                  | `main` (`:19-74`); `Exit.usage` is exit status 2, `Exit.failure` 1, `Exit.help` 0 |

The tool prints the numbers the loader computed, which are those of the header (`inspect_exact`).
-/

namespace Gpt2Runtime.Inspect

open Loop Word LittleEndian ParameterLayout CommandLine Arguments
open Generate (Files printSize tokenText)
open Benchmark (countText printSize_eq)

structure Options where
  checkpoint : String := ""
  showLayout : Bool := false
deriving DecidableEq, Repr

def usage (program : String) : String := "Usage: " ++ program ++ " --checkpoint PATH [--layout]\n"

def parseFlag (options : Options) (argument : String) : Except Exc (Option Options) :=
  if argument = "--layout" then .ok (some { options with showLayout := true })
  else if argument = "--help" then .ok none
  else .error (.invalidArgument ("unknown or incomplete argument: " ++ argument))

def parseArguments : Options → List String → Except Exc (Option Options)
  | options, [] => .ok (some options)
  | options, [argument] => parseFlag options argument
  | options, argument :: value :: rest =>
    if argument = "--checkpoint" then parseArguments { options with checkpoint := value } rest
    else do
      match ← parseFlag options argument with
      | some options => parseArguments options (value :: rest)
      | none => .ok none

def tensorLine (name offset count : String) (dimensions : List String) : String :=
  name ++ String.ofList (List.replicate (11 - name.length) ' ') ++ " offset=" ++ offset ++ " count=" ++ count ++
    " shape=[" ++ ",".intercalate dimensions ++ "]"

def specLine (spec : TensorSpec) : String :=
  tensorLine spec.name (printSize spec.offset) (printSize spec.count) ((spec.shape.take spec.rank).map printSize)

variable {α : Type}

def report (options : Options) (weights : ModelWeights α) : List String :=
  let config := weights.config
  ["checkpoint_version: " ++ tokenText weights.checkpointVersion,
    "max_seq_len: " ++ printSize config.maxSequenceLength,
    "vocab_size: " ++ printSize config.vocabularySize,
    "padded_vocab_size: " ++ printSize config.paddedVocabularySize,
    "num_layers: " ++ printSize config.numLayers,
    "num_heads: " ++ printSize config.numHeads,
    "channels: " ++ printSize config.channels,
    "num_parameters: " ++ printSize weights.layout.totalCount] ++
    if options.showLayout then "" :: "parameter_layout:" :: weights.layout.tensors.map specLine else []

inductive Exit where
  | success (lines : List String)
  | help (stderr : String)
  | usage (stderr : String)
  | failure (stderr : String)

variable [Scalar α]

variable (α) in
def loadWeights (files : Files) (path : String) : Except Exc (ModelWeights α) :=
  match files.checkpoint path with
  | none => .error (.runtimeError ("cannot open checkpoint: " ++ path))
  | some file => ModelWeights.loadCheckpoint file

def failure (e : Exc) : Exit := .failure ("gpt2_inspect: " ++ e.what ++ "\n")

variable (α) in
def main (files : Files) (program : String) (arguments : List String) : Exit :=
  match parseArguments {} arguments with
  | .error e => failure e
  | .ok none => .help (Inspect.usage program)
  | .ok (some options) =>
    if options.checkpoint = "" then .usage (Inspect.usage program)
    else
      match loadWeights α files options.checkpoint with
      | .error e => failure e
      | .ok weights => .success (report options weights)

/-! ## The arguments -/

def grammar : Arguments.Syntax String Options Exc where
  valued argument := if argument = "--checkpoint" then some fun value options => .ok { options with checkpoint := value } else none
  single argument := if argument = "--layout" then some fun options => { options with showLayout := true } else none
  help argument := decide (argument = "--help")
  unknown argument := .invalidArgument ("unknown or incomplete argument: " ++ argument)
  apart argument h := by
    by_cases hcheckpoint : argument = "--checkpoint"
    · subst hcheckpoint
      exact ⟨rfl, rfl⟩
    · rw [if_neg hcheckpoint] at h
      cases h

theorem parseFlag_eq (options : Options) (argument : String) : parseFlag options argument = grammar.lone options argument := by
  unfold parseFlag Syntax.lone grammar
  by_cases hlayout : argument = "--layout"
  · simp only [if_pos hlayout]
  · by_cases hhelp : argument = "--help"
    · simp only [if_neg hlayout, if_pos hhelp, decide_eq_true hhelp, if_true]
    · simp only [if_neg hlayout, if_neg hhelp, decide_eq_false hhelp, Bool.false_eq_true, if_false]

theorem parseArguments_eq (options : Options) (arguments : List String) :
    parseArguments options arguments = grammar.parse options arguments := by
  fun_induction parseArguments options arguments with
  | case1 options => rfl
  | case2 options argument => exact parseFlag_eq options argument
  | case3 options value rest ih =>
    rw [Syntax.parse_valued (g := grammar) (if_pos rfl)]
    exact ih
  | case4 options argument value rest hcheckpoint ih =>
    rw [Syntax.parse_lone (g := grammar) (if_neg hcheckpoint), parseFlag_eq]
    congr 1
    funext r
    cases r with
    | none => rfl
    | some options => exact ih options

inductive Setting where
  | checkpoint (path : String)
  | layout

namespace Setting

/-- The words of a setting. -/
inductive Spells : Setting → List String → Prop
  | checkpoint (path : String) : Spells (.checkpoint path) ["--checkpoint", path]
  | layout : Spells .layout ["--layout"]

def apply (setting : Setting) (options : Options) : Options :=
  match setting with
  | .checkpoint path => { options with checkpoint := path }
  | .layout => { options with showLayout := true }

end Setting

def spelling : Arguments.Spelling grammar Setting where
  Spells := Setting.Spells
  apply := Setting.apply
  valued {word value set options options'} hword hset := by
    by_cases h : word = "--checkpoint"
    · subst h
      cases hword
      exact ⟨_, .checkpoint value, (Except.ok.inj hset).symm⟩
    · rw [show grammar.valued word = none from if_neg h] at hword
      cases hword
  single {word set} options hword := by
    by_cases h : word = "--layout"
    · subst h
      cases hword
      exact ⟨_, .layout, rfl⟩
    · rw [show grammar.single word = none from if_neg h] at hword
      cases hword
  reads options h := by
    cases h with
    | checkpoint path => exact .valued rfl rfl .nil
    | layout => exact .single rfl .nil

/-- The arguments spell settings, which leave `options`. -/
def Describes (arguments : List String) (options : Options) : Prop :=
  ∃ settings words, List.Forall₂ Setting.Spells settings words ∧ words.flatten = arguments ∧
    options = settings.foldl (fun options setting => setting.apply options) {}

/-- The lines of the tensors laid out from an offset on, over the natural numbers. -/
def layoutLines : Nat → List (String × List Nat) → List String
  | _, [] => []
  | offset, (name, dimensions) :: rest =>
    tensorLine name (countText offset) (countText dimensions.prod) (dimensions.map countText) ::
      layoutLines (offset + dimensions.prod) rest

/-- The report, over the natural numbers. -/
def expected (showLayout : Bool) (version : Int32) (config : ModelConfig) : List String :=
  ["checkpoint_version: " ++ tokenText version,
    "max_seq_len: " ++ countText config.maxSequenceLength.toNat,
    "vocab_size: " ++ countText config.vocabularySize.toNat,
    "padded_vocab_size: " ++ countText config.paddedVocabularySize.toNat,
    "num_layers: " ++ countText config.numLayers.toNat,
    "num_heads: " ++ countText config.numHeads.toNat,
    "channels: " ++ countText config.channels.toNat,
    "num_parameters: " ++ countText (parameterCount config)] ++
    if showLayout then "" :: "parameter_layout:" :: layoutLines 0 config.shapes else []

theorem specLines_eq {tensors : List (String × List UInt64)} {offset : Nat} (h : offset + totalEntries tensors < 2 ^ 64) :
    (specsFrom offset tensors).map specLine = layoutLines offset (tensors.map fun t => (t.1, t.2.map UInt64.toNat)) := by
  induction tensors generalizing offset with
  | nil => rfl
  | cons t tensors ih =>
    obtain ⟨name, dimensions⟩ := t
    replace h : offset + (entryCount dimensions + totalEntries tensors) < 2 ^ 64 := h
    have hcount : entryCount dimensions < 2 ^ 64 := by omega
    have hdimensions : (dimensions.map UInt64.toNat).map countText = dimensions.map printSize := by
      rw [List.map_map]
      exact List.map_congr_left fun d _ => (printSize_eq rfl).symm
    rw [specsFrom, List.map_cons, List.map_cons, layoutLines, ih (by omega), hdimensions]
    congr 1
    unfold specLine
    rw [printSize_eq (toNat_ofNat_of_lt (show offset < 2 ^ 64 by omega)), printSize_eq (toNat_ofNat_of_lt hcount),
      List.take_left]
    rfl

omit [Scalar α] in
theorem report_eq {weights : ModelWeights α} (h : weights.WellFormed) (options : Options) :
    report options weights = expected options.showLayout weights.checkpointVersion weights.config := by
  have hfits := h.fits
  have hchannels := channels_le_parameterCount h.valid
  have htotal : weights.layout.totalCount.toNat = parameterCount weights.config := by
    rw [h.layout]
    exact toNat_ofNat_of_lt (by omega)
  have hlines : weights.layout.tensors.map specLine = layoutLines 0 weights.config.shapes := by
    rw [← tensorDimensions_shapes h.valid (by omega), h.layout]
    refine specLines_eq ?_
    rw [totalEntries_tensorDimensions (toNat_mul_eq rfl rfl (by omega)) (toNat_mul_eq rfl rfl (by omega))]
    omega
  unfold report expected
  rw [hlines]
  simp only [printSize_eq htotal, printSize_eq (m := UInt64.toNat _) rfl]

end Gpt2Runtime.Inspect
