import Gpt2Runtime.BenchmarkCommand
/-
# The benchmark measures what the generator does

| here | there |
| --- | --- |
| `Options.command`       | the `gpt2_generate` command for the settings of a `gpt2_benchmark` one: cached mode, a capacity of 0 left to its default (`gpt2_benchmark.cpp:225-226`, `gpt2_generate.cpp:190`) |

The two programs check their settings and drive their sessions in code of their own. They agree on which runs are
admitted but for the tight ones, and on the tokens of every run both complete (`benchmark_follows_generate`).
-/

namespace Gpt2Runtime.Benchmark

open Word InferenceSession
open Generate (Files Loads Completes)

variable {α : Type} [Scalar α]

def Options.command (options : Options) : Generate.Options where
  checkpoint := String.ofList options.checkpoint
  tokens := options.tokens
  maxNewTokens := options.generationTokens
  capacity := if options.capacity = 0 then none else some options.capacity
  threads := options.threads
  mode := .cached

omit [Scalar α] in
theorem Options.sessionCapacity_command (options : Options) (config : ModelConfig) :
    options.command.request.sessionCapacity config = options.sessionCapacity config := by
  unfold Gpt2Runtime.Options.sessionCapacity Options.sessionCapacity Generate.Options.request Options.command
  split_ifs <;> rfl

/-- **The two validations agree** on every run that is not tight. -/
theorem measurable_iff {files : Files} {host : Host (Executor α)} {options : Options} {model : GPT2Model α}
    (htokens : options.tokens ≠ []) (hload : Loads files (String.ofList options.checkpoint) model) :
    Measurable options model.weights.config ∧ host.Grants options.threads ↔
      Completes files host options.command model ∧ ¬options.Tight (options.sessionCapacity model.weights.config) := by
  have hcapacity := options.sessionCapacity_command model.weights.config
  have hpos := List.length_pos_iff.2 htokens
  constructor
  · rintro ⟨h, hgrants⟩
    refine ⟨⟨hload, h.valid, h.context, fun _ => ?_, fun _ => ?_, fun _ => hgrants, fun hdump => absurd rfl hdump⟩, h.not_tight⟩
    · rw [hcapacity]
      exact h.room
    · have hroom := h.room
      rw [hcapacity]
      exact ⟨by omega, h.capacity_le, h.fits⟩
  · rintro ⟨h, htight⟩
    have hroom := h.room rfl
    have hfits := h.capacity rfl
    rw [hcapacity] at hroom hfits
    exact ⟨⟨h.valid, h.context, hroom, hfits.2.1, hfits.2.2, htight⟩, h.executor rfl⟩

theorem Options.Consistent.command {options : Options} (h : options.Consistent) (htokens : options.tokens ≠ []) :
    Generate.Scan.Consistent ⟨options.command, true⟩ where
  checkpoint hempty := h.checkpoint (String.ofList_eq_empty_iff.1 hempty)
  tokens := htokens
  greedy _ := rfl
  capacity hfull := nomatch hfull
  threads := h.threads
  serial hfull := nomatch hfull

/-- The words say what the settings are. -/
theorem describes_unique {arguments : List String} {s s' : Generate.Scan} (h : Generate.Describes arguments s)
    (h' : Generate.Describes arguments s') : s = s' := by
  have hparse := Arguments.Syntax.parse_some_iff.2 (Generate.reads_iff.2 h)
  rw [Arguments.Syntax.parse_some_iff.2 (Generate.reads_iff.2 h')] at hparse
  exact (Option.some.inj (Except.ok.inj hparse)).symm

theorem output_tokens_last (options : Generate.Options) (model : GPT2Model α) :
    ∃ before, Generate.stdout options (Generate.expected options model) =
      before ++ Generate.tokensText (greedy model.logits options.tokens options.maxNewTokens.toNat) := ⟨_, rfl⟩

theorem generated_tokens_mem (options : Options) (model : GPT2Model α) :
    "generated_tokens=" ++ tokensText (greedy model.logits options.tokens options.generationTokens.toNat) ∈
      expected options model := by
  unfold expected
  simp

/-- **The benchmark measures what the generator does.** For consistent settings it reports, and the generator's host has
an executor for them, exactly if the generator completes them in cached mode, the run is not tight and the benchmark's
host grants its executor and the room for its timings. And every `gpt2_generate` command line that asks for as many
tokens after the same prompt on the same checkpoint, in either mode and whatever its capacity and threads, prints the
tokens of the report. -/
theorem benchmark_follows_generate (files : Files) (host host' : Host (Executor α)) (program generator : String)
    (arguments : List String) (hhost : host.Realizes) (hhost' : host'.Realizes) {options : Options}
    (hdescribes : Describes arguments options) (hconsistent : options.Consistent) :
    ((∃ lines, main files host program arguments = .success lines) ∧ host'.Grants options.threads ↔
      (∃ text, Generate.main files host' generator options.command.arguments = .success text none) ∧
        (∀ model : GPT2Model α, Loads files (String.ofList options.checkpoint) model →
          ¬options.Tight (options.sessionCapacity model.weights.config)) ∧ options.Granted host) ∧
    ∀ lines text dump arguments' s, main files host program arguments = .success lines →
      Generate.Describes arguments' s → s.options.checkpoint = String.ofList options.checkpoint →
      s.options.tokens = options.tokens → s.options.maxNewTokens = options.generationTokens →
      Generate.main files host' generator arguments' = .success text dump →
      ∃ tokens before, "generated_tokens=" ++ tokensText tokens ∈ lines ∧ text = before ++ Generate.tokensText tokens := by
  have hserves := hhost.serves
  have hserves' := hhost'.serves
  have hparse := parseOptions_ok_iff.2 ⟨hdescribes, hconsistent⟩
  have htokens := (parseOptions_parsed hparse).tokens
  have hgenerated : Generate.Describes options.command.arguments ⟨options.command, true⟩ :=
    Generate.Options.describes_arguments htokens
  have hsame : ∀ {options'}, Describes arguments options' → options'.Consistent → options' = options := by
    intro options' hdescribes' hconsistent'
    have hparse' := parseOptions_ok_iff.2 ⟨hdescribes', hconsistent'⟩
    rw [hparse] at hparse'
    exact (Option.some.inj (Except.ok.inj hparse')).symm
  constructor
  · constructor
    · rintro ⟨⟨lines, hmain⟩, hgrants⟩
      obtain ⟨options', model, hdescribes', hconsistent', hload, hmeasurable, hgranted, -⟩ := (success_iff hserves).1 hmain
      obtain rfl := hsame hdescribes' hconsistent'
      obtain ⟨hcompletes, htight⟩ := (measurable_iff htokens hload).1 ⟨hmeasurable, hgrants⟩
      have hgenerates : Generate.main files host' generator options'.command.arguments = .success _ none :=
        (Generate.success_iff hserves').2 ⟨_, model, hgenerated, hconsistent.command htokens, hcompletes, rfl, rfl⟩
      refine ⟨⟨_, hgenerates⟩, fun model' hload' => ?_, hgranted⟩
      obtain rfl := hload.unique hload'
      exact htight
    · rintro ⟨⟨text, hmain⟩, htight, hgranted⟩
      obtain ⟨s, model, hdescribes', hconsistent', hcompletes, -, -⟩ := (Generate.success_iff hserves').1 hmain
      obtain rfl := describes_unique hgenerated hdescribes'
      obtain ⟨hmeasurable, hgrants⟩ := (measurable_iff htokens hcompletes.loads).2 ⟨hcompletes, htight model hcompletes.loads⟩
      have hreports : main files host program arguments = .success (expected options model) :=
        (success_iff hserves).2 ⟨options, model, hdescribes, hconsistent, hcompletes.loads, hmeasurable, hgranted, rfl⟩
      exact ⟨⟨_, hreports⟩, hgrants⟩
  · intro lines text dump arguments' s hmain hdescribes' hcheckpoint htokens' hcount hmain'
    obtain ⟨options', model, hoptions, hconsistent', hload, -, -, rfl⟩ := (success_iff hserves).1 hmain
    obtain rfl := hsame hoptions hconsistent'
    obtain ⟨s', model', hs', -, hcompletes, rfl, -⟩ := (Generate.success_iff hserves').1 hmain'
    obtain rfl := describes_unique hdescribes' hs'
    have hload' := hcompletes.loads
    rw [hcheckpoint] at hload'
    obtain rfl := hload.unique hload'
    obtain ⟨before, hbefore⟩ := output_tokens_last s.options model
    refine ⟨_, before, generated_tokens_mem options' model, ?_⟩
    rw [hbefore, htokens', hcount]

/-- The tiny benchmark on a cache of two and its command. -/
theorem benchmark_follows_generate_tiny : ∃ (start : UInt64 → Executor Int) (text : String),
    Generate.main Generate.tinyFiles (.granting start) "gpt2_generate" (tinyRun 2).command.arguments = .success text none := by
  obtain ⟨start, hhost⟩ := exists_host Int
  obtain ⟨hdescribes, hconsistent⟩ :=
    (show Describes (tinyArguments "2") (tinyRun 2) ∧ (tinyRun 2).Consistent from tinyRun_described rfl)
  have hreports : main Generate.tinyFiles (.granting start) "gpt2_benchmark" (tinyArguments "2") =
      .success (expected (tinyRun 2) tinyModel) := (success_iff hhost.serves).2
    ⟨tinyRun 2, tinyModel, hdescribes, hconsistent, (Generate.tinyCommand_completes start).loads, tinyRun_measurable,
      ⟨Host.grants_granting _ _, rfl⟩, rfl⟩
  obtain ⟨hruns, -⟩ := benchmark_follows_generate Generate.tinyFiles _ _ "gpt2_benchmark" "gpt2_generate" _ hhost hhost
    hdescribes hconsistent
  obtain ⟨⟨text, htext⟩, -⟩ := hruns.1 ⟨⟨_, hreports⟩, Host.grants_granting _ _⟩
  exact ⟨start, text, htext⟩

end Gpt2Runtime.Benchmark
