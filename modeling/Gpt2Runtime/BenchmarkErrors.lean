import Gpt2Runtime.BenchmarkCommand
import Gpt2Runtime.GenerateErrors
/-
# How the benchmark fails (`app/gpt2_benchmark.cpp`)

| here | there |
| --- | --- |
| `Rejects`               | what `parse_options` throws (`gpt2_benchmark.cpp:101-142`): of the first word it rejects, or of the checks behind the loop |
| `rejection`             | the first check of a run that fails (`:221-241`, `session.cpp:31-56`, `:175-177`) or what the host refuses it, over the natural numbers |
| `Fails`                 | the exceptions `main` reports, by the place they come from |

Three checks stand behind the measurements: that the generations agree, the sizes of `kernels::linear` and the ones of
the session. Of these only the full cache of a tight run is ever reported (`main_refuses_iff`).
-/

namespace Gpt2Runtime.Benchmark

open Loop Flat Word CommandLine Arguments InferenceSession
open Generate (Files Loads)

/-! ## The command line -/

inductive Rejects (arguments : List String) (e : Exc) : Prop
  | word {before rest : List String} {options : Options} (harguments : arguments = before ++ rest)
      (hreads : Describes before options) (hstops : grammar.Stops options rest e) : Rejects arguments e
  | check {options : Options} (hreads : Describes arguments options) (hcheck : checkOptions options = .error e) :
      Rejects arguments e

theorem setOption_error {options : Options} {word : String} {value : List Char} {set : Except Exc Options} {e : Exc}
    (hset : setOption options word value = some set) (h : set = .error e) : ∃ what, e = .invalidArgument what := by
  subst h
  have hsize : ∀ {option : String} {f : UInt64 → Options},
      (parseSize value option >>= fun n => pure (f n)) = .error e → ∃ what, e = .invalidArgument what := by
    intro option f h
    rcases bind_eq_error.1 h with h | ⟨_, -, h⟩
    · exact ⟨_, parseSize_error h⟩
    · cases h
  unfold setOption at hset
  split_ifs at hset <;> rw [Option.some.injEq] at hset
  · cases hset
  · rcases bind_eq_error.1 hset with h | ⟨_, -, h⟩
    · exact parseTokens_error h
    · cases h
  all_goals exact hsize hset

theorem Rejects.invalidArgument {arguments : List String} {e : Exc} (h : Rejects arguments e) :
    ∃ what, e = .invalidArgument what := by
  rcases h with ⟨-, -, hstops⟩ | ⟨-, hcheck⟩
  · cases hstops with
    | incomplete | unknown => exact ⟨_, rfl⟩
    | @value word value rest set e hword hset =>
      have htakes : takesValue word = true := by
        by_contra hno
        rw [show grammar.valued word = none from if_neg hno] at hword
        cases hword
      rw [show grammar.valued word = some _ from if_pos htakes, Option.some.injEq] at hword
      subst hword
      rename_i options
      obtain ⟨set, hoption⟩ := Option.isSome_iff_exists.1 ((isSome_setOption options word value.toList).trans htakes)
      simp only [hoption, Option.getD_some] at hset
      exact setOption_error hoption hset
  · unfold checkOptions at hcheck
    rcases bind_eq_error.1 hcheck with h | ⟨_, -, hcheck⟩
    · exact ⟨_, throwIf_error h⟩
    rcases bind_eq_error.1 hcheck with h | ⟨_, -, hcheck⟩
    · exact ⟨_, throwIf_error h⟩
    rcases bind_eq_error.1 hcheck with h | ⟨_, -, hcheck⟩
    · exact ⟨_, throwIf_error h⟩
    · exact ⟨_, throwIf_error hcheck⟩

/-! ## The run -/

instance (options : Options) (capacity : UInt64) : Decidable (options.Tight capacity) := inferInstanceAs (Decidable (_ ∧ _))

/-- What the constructor of a cache of admitted dimensions throws. -/
def cacheRejection (config : ModelConfig) (capacity : UInt64) : Option Exc :=
  if 2 ^ 64 ≤ 8 * cacheFloats config capacity then some (overflow (cacheOverflow (cacheFloats config capacity))) else none

/-- The session is constructed before the room for the timings is asked for, if there is a warm-up. -/
def creationRejection {E : Type} (host : Host E) (options : Options) (config : ModelConfig) : Option Exc :=
  let cache := cacheRejection config (options.sessionCapacity config)
  let timings := refusal (host.reserve options.repetitions)
  if options.warmup = 0 then timings.or cache else cache.or timings

def rejection {E : Type} (host : Host E) (options : Options) (config : ModelConfig) : Option Exc :=
  let capacity := options.sessionCapacity config
  match refusal (makeExecutor host options.threads) with
  | some e => some e
  | none =>
    if config.maxSequenceLength.toNat < options.tokens.length + options.generationTokens.toNat then
      some (.invalidArgument "benchmark generation exceeds model context length")
    else if capacity.toNat < options.tokens.length + (options.generationTokens.toNat - 1) ∨
        config.maxSequenceLength.toNat < capacity.toNat then
      some (.invalidArgument "benchmark capacity cannot hold generation state")
    else if ¬∀ t ∈ options.tokens, TokenValid config t then
      some (.invalidArgument "benchmark token is outside the real vocabulary")
    else
      match creationRejection host options config with
      | some e => some e
      | none => if options.Tight capacity then some (.lengthError "session KV cache is full") else none

section

variable {E : Type} {host : Host E} {options : Options} {config : ModelConfig}

theorem creationRejection_eq_none_iff : creationRejection host options config = none ↔
    8 * cacheFloats config (options.sessionCapacity config) < 2 ^ 64 ∧ host.reserve options.repetitions = .ok () := by
  have hcache : cacheRejection config (options.sessionCapacity config) = none ↔
      8 * cacheFloats config (options.sessionCapacity config) < 2 ^ 64 := by
    unfold cacheRejection
    split <;> simp_all
  have htimings : refusal (host.reserve options.repetitions) = none ↔ host.reserve options.repetitions = .ok () := by
    rw [refusal_eq_none_iff]
    exact ⟨fun ⟨⟨⟩, h⟩ => h, fun h => ⟨(), h⟩⟩
  unfold creationRejection
  simp only
  split
  · rw [Option.or_eq_none_iff, hcache, htimings, and_comm]
  · rw [Option.or_eq_none_iff, hcache, htimings]

theorem rejection_eq_none_iff (hthreads : options.threads ≠ 0) : rejection host options config = none ↔
    Measurable options config ∧ host.Grants options.threads ∧ host.reserve options.repetitions = .ok () := by
  unfold rejection
  simp only
  cases hrefusal : refusal (makeExecutor host options.threads) with
  | some e =>
    simp only [reduceCtorEq, false_iff]
    rintro ⟨-, hgrants, -⟩
    rw [refusal_eq_none_iff.2 ((grants_iff hthreads).1 hgrants)] at hrefusal
    cases hrefusal
  | none =>
    have hgrants := (grants_iff hthreads).2 (refusal_eq_none_iff.1 hrefusal)
    simp only [hgrants, true_and]
    split
    · next hcontext =>
      simp only [reduceCtorEq, false_iff]
      exact fun h => absurd h.1.context (Nat.not_le.2 hcontext)
    split
    · next hcapacity =>
      simp only [reduceCtorEq, false_iff]
      exact fun h => hcapacity.elim (Nat.not_lt.2 h.1.room) (Nat.not_lt.2 h.1.capacity_le)
    split
    · next hinvalid =>
      simp only [reduceCtorEq, false_iff]
      exact fun h => hinvalid h.1.valid
    · next hcontext hcapacity hvalid =>
      cases hcreation : creationRejection host options config with
      | some e =>
        simp only [reduceCtorEq, false_iff]
        rintro ⟨h, hreserve⟩
        rw [creationRejection_eq_none_iff.2 ⟨h.fits, hreserve⟩] at hcreation
        cases hcreation
      | none =>
        obtain ⟨hfits, hreserve⟩ := creationRejection_eq_none_iff.1 hcreation
        rw [not_or, not_lt, not_lt] at hcapacity
        by_cases htight : options.Tight (options.sessionCapacity config)
        · simp only [htight, if_true, reduceCtorEq, false_iff]
          exact fun h => h.1.not_tight htight
        · simp only [htight, if_false, true_iff]
          exact ⟨⟨not_not.1 hvalid, Nat.not_lt.1 hcontext, hcapacity.1, hcapacity.2, hfits, htight⟩, hreserve⟩

end

variable {α : Type} [Scalar α] {files : Files} {host : Host (Executor α)} {options : Options} {model : GPT2Model α} {e : Exc}

/-- What `main` reports: of the arguments, of the checkpoint, of the first check of the run. -/
inductive Fails (files : Files) (host : Host (Executor α)) (arguments : List String) : Exc → Prop
  | arguments {e : Exc} (hrejects : Rejects arguments e) : Fails files host arguments e
  | checkpoint {options : Options} {e : Exc} (hdescribes : Describes arguments options) (hconsistent : options.Consistent)
      (hload : (Generate.loadModel files (String.ofList options.checkpoint) : Except Exc (GPT2Model α)) = .error e) :
      Fails files host arguments e
  | run {options : Options} {model : GPT2Model α} {e : Exc} (hdescribes : Describes arguments options)
      (hconsistent : options.Consistent) (hload : Loads files (String.ofList options.checkpoint) model)
      (hreject : rejection host options model.weights.config = some e) : Fails files host arguments e

end Gpt2Runtime.Benchmark
