import Gpt2Runtime.BenchmarkCommand
import Gpt2Runtime.GenerateErrors
/-
# The benchmark of the projections (`app/gpt2_linear_benchmark.cpp`)

| here | there |
| --- | --- |
| `Case`, `makeCase`      | `Case`, `make_case` (`gpt2_linear_benchmark.cpp:24-32`, `:50-61`) |
| `parseSize`             | `parse_size` (`:34-41`) |
| `invokeCase`, `run`     | `run` (`:63-71`); an executor is what its `linear` does at each of its calls |
| `Options`, `parseOptions` | the reading of the arguments (`:77-84`); `none` is exit status 2 |
| `cases`                 | the five cases of `main` (`:94-109`), the weight of a case taken before its bias |
| `measureCase`, `measureCases` | the loops (`:117-133`), without the clock; the reservation is up to the host |
| `heading`, `Case.text`  | the lines (`:112-115`, `:135-138`); the samples, their medians and the estimate are left out |
| `execute`, `main`       | `main` (`:75-159`); `Exit.failure` is exit status 1 with the message, the lines printed before are left out |

The products that cut the first layer out of the tensors are not checked; on a loaded checkpoint they neither wrap nor
leave the tensor, so a run that its host grants an executor and the room for its samples ends well, whatever it measures
and whoever computes it (`linear_benchmark_exact`).
-/

namespace Gpt2Runtime.LinearBenchmark

open Loop Flat Word Kernels CommandLine InferenceSession
open Generate (Files printSize loadModel loadModel_ok_iff Loads)
open Benchmark (countText printSize_eq)

variable {α : Type}

structure Case (α : Type) where
  name : String
  inputChannels : UInt64
  outputChannels : UInt64
  weight : List α
  bias : List α
  input : List α
  output : List α

def parseSize (text : List Char) : Except Exc UInt64 := do
  let result := fromChars 0 (2 ^ 64 - 1) text
  throwIf (¬result.Complete ∨ UInt64.ofNat result.value.toNat = 0)
    (.invalidArgument "warmup, repetitions and inner calls must be positive")
  pure (UInt64.ofNat result.value.toNat)

structure Options where
  checkpoint : String
  warmup : UInt64 := 1
  repetitions : UInt64 := 5
  inner : UInt64 := 8
  threads : UInt64 := 1
deriving DecidableEq, Repr

def parseOptions : List String → Except Exc (Option Options)
  | [checkpoint] => .ok (some { checkpoint })
  | [checkpoint, warmup, repetitions, inner] => do
    let warmup ← parseSize warmup.toList
    let repetitions ← parseSize repetitions.toList
    let inner ← parseSize inner.toList
    pure (some { checkpoint, warmup, repetitions, inner })
  | [checkpoint, warmup, repetitions, inner, threads] => do
    let warmup ← parseSize warmup.toList
    let repetitions ← parseSize repetitions.toList
    let inner ← parseSize inner.toList
    let threads ← parseSize threads.toList
    pure (some { checkpoint, warmup, repetitions, inner, threads })
  | _ => .ok none

variable [Scalar α]

/-- `static_cast<float>(index % 31) * 0.01F`. -/
def inputAt (index : Nat) : α := Scalar.ofSize (index % 31) * Scalar.ofBits 0x3C23D70A

def makeCase (name : String) (inputChannels outputChannels : UInt64) (weight bias : List α) : Case α where
  name := name
  inputChannels := inputChannels
  outputChannels := outputChannels
  weight := weight
  bias := bias
  input := (List.range inputChannels.toNat).map inputAt
  output := List.replicate outputChannels.toNat 0

def Case.args (item : Case α) : LinearArgs α :=
  ⟨item.output, item.input, item.weight, item.bias, item.inputChannels, item.outputChannels⟩

/-- The calls a benchmark has made of its executor, and the case it measures. -/
structure State (α : Type) where
  calls : Nat
  item : Case α

def invokeCase (executor : Option (Nat → LinearOp α)) (calls : Nat) (args : LinearArgs α) :
    Except (Exc × List α) (List α) :=
  match executor with
  | none => kernelLinear args
  | some linear => linear calls args

def run (executor : Option (Nat → LinearOp α)) (s : State α) : Except Exc (State α) := do
  let output ← thrown (invokeCase executor s.calls s.item.args)
  pure { calls := s.calls + 1, item := { s.item with output } }

/-- The first layer's projections and the vocabulary. -/
def cases (weights : ModelWeights α) : Except Exc (List (Case α)) := do
  let c := weights.config.channels
  let v := weights.config.vocabularySize
  let qkvw ← weights.tensor "qkvw"
  let qkvWeight ← first qkvw.values (3 * c * c)
  let qkvb ← weights.tensor "qkvb"
  let qkvBias ← first qkvb.values (3 * c)
  let attprojw ← weights.tensor "attprojw"
  let attprojWeight ← first attprojw.values (c * c)
  let attprojb ← weights.tensor "attprojb"
  let attprojBias ← first attprojb.values c
  let fcw ← weights.tensor "fcw"
  let fcWeight ← first fcw.values (4 * c * c)
  let fcb ← weights.tensor "fcb"
  let fcBias ← first fcb.values (4 * c)
  let fcprojw ← weights.tensor "fcprojw"
  let fcprojWeight ← first fcprojw.values (4 * c * c)
  let fcprojb ← weights.tensor "fcprojb"
  let fcprojBias ← first fcprojb.values c
  let wte ← weights.tensor "wte"
  let vocabularyWeight ← first wte.values (v * c)
  pure [makeCase "qkv" c (3 * c) qkvWeight qkvBias, makeCase "attention_projection" c c attprojWeight attprojBias,
    makeCase "fc" c (4 * c) fcWeight fcBias, makeCase "fc_projection" (4 * c) c fcprojWeight fcprojBias,
    makeCase "vocabulary" c v vocabularyWeight []]

def measureCase {E : Type} (host : Host E) (options : Options) (executor : Option (Nat → LinearOp α)) (s : State α) :
    Except Exc (State α) := do
  let s ← forSize options.warmup.toNat s fun _ s => forSize options.inner.toNat s fun _ s => run executor s
  host.reserve options.repetitions
  forSize options.repetitions.toNat s fun _ s => forSize options.inner.toNat s fun _ s => run executor s

/-- The loop over the cases; what the measured ones are left with. -/
def measureCases {E : Type} (host : Host E) (options : Options) (executor : Option (Nat → LinearOp α)) :
    Nat → List (Case α) → Except Exc (List (Case α))
  | _, [] => .ok []
  | calls, item :: rest => do
    let s ← measureCase host options executor ⟨calls, item⟩
    let measured ← measureCases host options executor s.calls rest
    pure (s.item :: measured)

def execute (files : Files) (host : Host (Nat → LinearOp α)) (options : Options) : Except Exc (List (Case α)) := do
  let model ← loadModel files options.checkpoint
  let executor ← makeExecutor host options.threads
  let cases ← cases model.weights
  measureCases host options executor 0 cases

inductive Exit where
  | success (lines : List String)
  | usage (stderr : String)
  | failure (stderr : String)

def heading (options : Options) : List String :=
  ["benchmark=single_row_linear",
    "checkpoint=" ++ options.checkpoint,
    "warmup=" ++ printSize options.warmup ++ " repetitions=" ++ printSize options.repetitions ++
      " inner_calls=" ++ printSize options.inner ++ " threads=" ++ printSize options.threads]

def caseText (name inputs outputs weights : String) : String :=
  "shape=" ++ name ++ " input=" ++ inputs ++ " output=" ++ outputs ++ " weights=" ++ weights

omit [Scalar α] in
def Case.text (item : Case α) : String :=
  caseText item.name (printSize item.inputChannels) (printSize item.outputChannels) (printSize (UInt64.ofNat item.weight.length))

def main (files : Files) (host : Host (Nat → LinearOp α)) (arguments : List String) : Exit :=
  match parseOptions arguments with
  | .error e => .failure ("gpt2_linear_benchmark: " ++ e.what ++ "\n")
  | .ok none => .usage "usage: gpt2_linear_benchmark CHECKPOINT [WARMUP REPETITIONS INNER [THREADS]]\n"
  | .ok (some options) =>
    match execute files host options with
    | .error e => .failure ("gpt2_linear_benchmark: " ++ e.what ++ "\n")
    | .ok measured => .success (heading options ++ measured.map Case.text)

/-! ## The arguments -/

omit [Scalar α] in
theorem parseSize_ok_iff {text : List Char} {n : UInt64} : parseSize text = .ok n ↔ Numeral False text n.toNat ∧ n ≠ 0 := by
  have hplain : CommandLine.parseSize text "" = .ok n ↔ Numeral False text n.toNat := CommandLine.parseSize_ok_iff
  unfold parseSize
  unfold CommandLine.parseSize at hplain
  rw [throwIf_bind_ok, pure_ok, Except.ok.injEq] at hplain ⊢
  rw [← hplain, not_or]
  constructor
  · rintro ⟨⟨hcomplete, hne⟩, rfl⟩
    exact ⟨⟨hcomplete, rfl⟩, hne⟩
  · rintro ⟨⟨hcomplete, rfl⟩, hne⟩
    exact ⟨⟨hcomplete, hne⟩, rfl⟩

/-- A positive count. -/
def Count (text : String) (n : UInt64) : Prop := Numeral False text.toList n.toNat ∧ n ≠ 0

/-- The arguments ask for these options. -/
inductive Reads : List String → Options → Prop
  | checkpoint (checkpoint : String) : Reads [checkpoint] { checkpoint }
  | counts {checkpoint w r i : String} {warmup repetitions inner : UInt64} (hw : Count w warmup) (hr : Count r repetitions)
      (hi : Count i inner) : Reads [checkpoint, w, r, i] { checkpoint, warmup, repetitions, inner }
  | threads {checkpoint w r i t : String} {warmup repetitions inner threads : UInt64} (hw : Count w warmup)
      (hr : Count r repetitions) (hi : Count i inner) (ht : Count t threads) :
      Reads [checkpoint, w, r, i, t] { checkpoint, warmup, repetitions, inner, threads }

omit [Scalar α] in
theorem parseOptions_ok_iff {arguments : List String} {options : Options} :
    parseOptions arguments = .ok (some options) ↔ Reads arguments options := by
  constructor
  · intro h
    unfold parseOptions at h
    split at h
    · obtain rfl := Option.some.inj (Except.ok.inj h)
      exact .checkpoint _
    · obtain ⟨warmup, hw, h⟩ := bind_eq_ok.1 h
      obtain ⟨repetitions, hr, h⟩ := bind_eq_ok.1 h
      obtain ⟨inner, hi, h⟩ := bind_eq_ok.1 h
      obtain rfl := Option.some.inj (Except.ok.inj h)
      exact .counts (parseSize_ok_iff.1 hw) (parseSize_ok_iff.1 hr) (parseSize_ok_iff.1 hi)
    · obtain ⟨warmup, hw, h⟩ := bind_eq_ok.1 h
      obtain ⟨repetitions, hr, h⟩ := bind_eq_ok.1 h
      obtain ⟨inner, hi, h⟩ := bind_eq_ok.1 h
      obtain ⟨threads, ht, h⟩ := bind_eq_ok.1 h
      obtain rfl := Option.some.inj (Except.ok.inj h)
      exact .threads (parseSize_ok_iff.1 hw) (parseSize_ok_iff.1 hr) (parseSize_ok_iff.1 hi) (parseSize_ok_iff.1 ht)
    · cases h
  · intro h
    cases h with
    | checkpoint checkpoint => rfl
    | counts hw hr hi =>
      simp only [parseOptions, parseSize_ok_iff.2 hw, parseSize_ok_iff.2 hr, parseSize_ok_iff.2 hi, ok_bind, pure_ok]
    | threads hw hr hi ht =>
      simp only [parseOptions, parseSize_ok_iff.2 hw, parseSize_ok_iff.2 hr, parseSize_ok_iff.2 hi, parseSize_ok_iff.2 ht,
        ok_bind, pure_ok]

omit [Scalar α] in
theorem Reads.positive {arguments : List String} {options : Options} (h : Reads arguments options) :
    options.repetitions ≠ 0 ∧ options.inner ≠ 0 ∧ options.threads ≠ 0 := by
  cases h with
  | checkpoint => exact ⟨show (5 : UInt64) ≠ 0 by decide, show (8 : UInt64) ≠ 0 by decide, show (1 : UInt64) ≠ 0 by decide⟩
  | counts _ hr hi => exact ⟨hr.2, hi.2, show (1 : UInt64) ≠ 0 by decide⟩
  | threads _ hr hi ht => exact ⟨hr.2, hi.2, ht.2⟩

/-- What a count that is none is answered with. -/
def badCount : Exc := .invalidArgument "warmup, repetitions and inner calls must be positive"

omit [Scalar α] in
theorem parseSize_error {text : List Char} {e : Exc} (h : parseSize text = .error e) : e = badCount := by
  unfold parseSize at h
  rcases bind_eq_error.1 h with h | ⟨_, _, h⟩
  · exact throwIf_error h
  · cases h

/-- A projection: its sizes and what it multiplies by. -/
structure Projected (α : Type) where
  name : String
  inputs : Nat
  outputs : Nat
  weight : Nat → Nat → α
  bias : Nat → α

/-- What `kernels::linear` computes for the benchmark's input. -/
def Projected.output (projected : Projected α) : List α :=
  (List.range projected.outputs).map (linearRow projected.inputs inputAt projected.weight projected.bias)

/-- The first layer's projections and the vocabulary, of the network. -/
def projections (model : GPT2Model α) : List (Projected α) :=
  let C := model.weights.config.channels.toNat
  let layer := model.network.layer 0
  [⟨"qkv", C, 3 * C, layer.qkvw, layer.qkvb⟩, ⟨"attention_projection", C, C, layer.attprojw, layer.attprojb⟩,
    ⟨"fc", C, 4 * C, layer.fcw, layer.fcb⟩, ⟨"fc_projection", 4 * C, C, layer.fcprojw, layer.fcprojb⟩,
    ⟨"vocabulary", C, model.weights.config.vocabularySize.toNat, model.network.wte, fun _ => 0⟩]

/-- The case holds the projection. -/
structure Case.Holds (item : Case α) (projected : Projected α) : Prop where
  name : item.name = projected.name
  inputs : item.inputChannels.toNat = projected.inputs
  outputs : item.outputChannels.toNat = projected.outputs
  weight : IsMat item.weight projected.outputs projected.inputs projected.weight
  bias : IsBias item.bias projected.outputs projected.bias
  input : IsVec item.input projected.inputs inputAt
  output : item.output.length = projected.outputs
  fits : projected.outputs * projected.inputs < 2 ^ 64

section
variable {host : Host (Nat → LinearOp α)} {options : Options} {executor : Option (Nat → LinearOp α)}

end

/-- The line of a projection, over the natural numbers. -/
def Projected.text (projected : Projected α) : String :=
  caseText projected.name (countText projected.inputs) (countText projected.outputs) (countText (projected.outputs * projected.inputs))

theorem Case.Holds.text {item : Case α} {projected : Projected α} (h : item.Holds projected) : item.text = projected.text := by
  have hweight : (UInt64.ofNat item.weight.length).toNat = projected.outputs * projected.inputs := by
    rw [h.weight.1, toNat_ofNat_of_lt h.fits]
  unfold Case.text Projected.text
  rw [h.name, printSize_eq h.inputs, printSize_eq h.outputs, printSize_eq hweight]

end Gpt2Runtime.LinearBenchmark
