import Gpt2Runtime.Padding
import Gpt2Runtime.GenerateErrors
/-
# Files of either version that hold the same model (`model.cpp:187-262`)

A file of version 1 stores the vocabulary rows of `wte`, one of version 3 says to how many rows they are padded. Every
tensor behind `wte` then lies elsewhere in the file, and elsewhere in the storage.

| here | there |
| --- | --- |
| `SameModel`             | two valid files with the same dimensions, vocabulary rows and later tensors, of any versions and paddings |
| `Files.SameModels`      | two file systems of such checkpoints |

The generator cannot tell such files apart: on both, a command line generates the same tokens, fails with the same
message and dumps the same real logits (`checkpoint_format_invisible`).
-/

namespace Gpt2Runtime

open Loop Flat Word LittleEndian ParameterLayout

variable {α : Type}

/-! ## Two files -/

/-- The floats of the padded `wte`. -/
def embeddingCount (config : ModelConfig) : Nat := config.paddedVocabularySize.toNat * config.channels.toNat

/-- The floats of the rows of `wte` that stand for tokens. -/
def vocabularyCount (config : ModelConfig) : Nat := config.vocabularySize.toNat * config.channels.toNat

structure SameModel (bytes bytes' : List UInt8) : Prop where
  valid : FileValid bytes
  valid' : FileValid bytes'
  dims : ∀ i, 2 ≤ i → i ≤ 6 → header bytes' i = header bytes i
  rows : ∀ i, i < vocabularyCount (headerConfig bytes) →
    wordAt bytes' (1024 + 4 * i) = wordAt bytes (1024 + 4 * i)
  later : ∀ i, embeddingCount (headerConfig bytes) + i < parameterCount (headerConfig bytes) →
    wordAt bytes' (1024 + 4 * (embeddingCount (headerConfig bytes') + i)) =
      wordAt bytes (1024 + 4 * (embeddingCount (headerConfig bytes) + i))

/-- The floats behind `wte`. -/
def laterCount (config : ModelConfig) : Nat :=
  config.channels.toNat * (config.maxSequenceLength.toNat + 2) +
    config.numLayers.toNat * config.channels.toNat * (12 * config.channels.toNat + 13)

theorem parameterCount_eq (config : ModelConfig) : parameterCount config = embeddingCount config + laterCount config := by
  unfold parameterCount embeddingCount laterCount
  ring

theorem vocabularyCount_le {config : ModelConfig} (h : config.Valid) : vocabularyCount config ≤ embeddingCount config :=
  Nat.mul_le_mul_right _ h.padded_ge

namespace SameModel

variable {bytes bytes' : List UInt8}

theorem config_eq (h : SameModel bytes bytes') : headerConfig bytes' =
    { headerConfig bytes with paddedVocabularySize := (headerConfig bytes').paddedVocabularySize } := by
  unfold headerConfig
  rw [h.dims 2 (by omega) (by omega), h.dims 3 (by omega) (by omega), h.dims 4 (by omega) (by omega),
    h.dims 5 (by omega) (by omega), h.dims 6 (by omega) (by omega)]

theorem vocabularyCount_eq (h : SameModel bytes bytes') :
    vocabularyCount (headerConfig bytes') = vocabularyCount (headerConfig bytes) := by
  rw [h.config_eq]
  simp only [vocabularyCount]

theorem laterCount_eq (h : SameModel bytes bytes') : laterCount (headerConfig bytes') = laterCount (headerConfig bytes) := by
  rw [h.config_eq]
  simp only [laterCount]

variable [Scalar α]

/-- What follows the embedding is the same. -/
theorem drop_readPayload (h : SameModel bytes bytes') :
    (ModelWeights.readPayload bytes' (parameterCount (headerConfig bytes'))).drop (embeddingCount (headerConfig bytes')) =
      (ModelWeights.readPayload bytes (parameterCount (headerConfig bytes)) : List α).drop (embeddingCount (headerConfig bytes)) := by
  have hcount := parameterCount_eq (headerConfig bytes)
  have hcount' := parameterCount_eq (headerConfig bytes')
  have hlater := h.laterCount_eq
  apply List.ext_getElem?
  intro i
  rw [List.getElem?_drop, List.getElem?_drop]
  by_cases hi : i < laterCount (headerConfig bytes)
  · rw [getElem?_readPayload _ (by omega), getElem?_readPayload _ (by omega), h.later i (by omega)]
  · rw [List.getElem?_eq_none (by rw [length_readPayload]; omega), List.getElem?_eq_none (by rw [length_readPayload]; omega)]

/-- So are the vocabulary rows. -/
theorem take_readPayload (h : SameModel bytes bytes') {n n' : Nat}
    (hn : vocabularyCount (headerConfig bytes) ≤ n)
    (hn' : vocabularyCount (headerConfig bytes) ≤ n') :
    (ModelWeights.readPayload bytes' n').take (vocabularyCount (headerConfig bytes)) =
      (ModelWeights.readPayload bytes n : List α).take
        (vocabularyCount (headerConfig bytes)) := by
  apply List.ext_getElem?
  intro i
  by_cases hi : i < vocabularyCount (headerConfig bytes)
  · rw [List.getElem?_take_of_lt hi, List.getElem?_take_of_lt hi, getElem?_readPayload _ (by omega),
      getElem?_readPayload _ (by omega), h.rows i hi]
  · rw [List.getElem?_eq_none (by rw [List.length_take]; omega), List.getElem?_eq_none (by rw [List.length_take]; omega)]

/-- **They load into models that differ in their padding only.** -/
theorem sameButPadding {file file' : CheckpointFile} (h : SameModel file.bytes file'.bytes) {A B : GPT2Model α}
    (hA : ModelWeights.loadCheckpoint file = .ok A.weights) (hB : ModelWeights.loadCheckpoint file' = .ok B.weights) :
    A.SameButPadding B := by
  obtain ⟨-, hA⟩ := (loadCheckpoint_ok_iff file A.weights).1 hA
  obtain ⟨-, hB⟩ := (loadCheckpoint_ok_iff file' B.weights).1 hB
  have hle := vocabularyCount_le h.valid.dims.config_valid
  have hle' := vocabularyCount_le h.valid'.dims.config_valid
  have hcount := parameterCount_eq (headerConfig file.bytes)
  have hcount' := parameterCount_eq (headerConfig file'.bytes)
  rw [h.vocabularyCount_eq] at hle'
  have hpayload : B.weights.storage.drop (embeddingCount B.weights.config) = A.weights.storage.drop (embeddingCount A.weights.config) := by
    rw [hA, hB]
    exact h.drop_readPayload
  have hA' : embeddingCount A.weights.config ≤ A.weights.storage.length := by
    rw [hA]
    show embeddingCount (headerConfig file.bytes) ≤ (ModelWeights.readPayload file.bytes _).length
    rw [length_readPayload]
    omega
  have hB' : embeddingCount B.weights.config ≤ B.weights.storage.length := by
    rw [hB]
    show embeddingCount (headerConfig file'.bytes) ≤ (ModelWeights.readPayload file'.bytes _).length
    rw [length_readPayload]
    omega
  refine GPT2Model.sameButPadding_of_storage ?_ (List.take_append_drop (embeddingCount A.weights.config) _).symm
    ?_ (List.length_take_of_le hA') (List.length_take_of_le hB') ?_
  · rw [hA, hB]
    exact h.config_eq
  · rw [← hpayload]
    exact (List.take_append_drop _ _).symm
  · rw [List.take_take, List.take_take, hA, hB]
    show List.take (min (vocabularyCount (headerConfig file.bytes)) (embeddingCount (headerConfig file.bytes)))
        (ModelWeights.readPayload file.bytes _) =
      List.take (min (vocabularyCount (headerConfig file.bytes)) (embeddingCount (headerConfig file'.bytes)))
        (ModelWeights.readPayload file'.bytes _)
    rw [Nat.min_eq_left hle, Nat.min_eq_left hle']
    exact (h.take_readPayload (by omega) (by omega)).symm

end SameModel

/-- Writing a model again, in the other version or with other padding. -/
theorem sameModel_writeCheckpoint {version version' : Int32} {config : ModelConfig} {padded : UInt64} (h : config.Writable version)
    (h' : { config with paddedVocabularySize := padded }.Writable version') {rows rows' rest : List (BitVec 32)}
    (hrows : rows.length = embeddingCount config) (hrows' : rows'.length = padded.toNat * config.channels.toNat)
    (hrest : rest.length = laterCount config)
    (hsame : ∀ i, i < vocabularyCount config → rows'[i]? = rows[i]?) :
    SameModel (writeCheckpoint version config (rows ++ rest))
      (writeCheckpoint version' { config with paddedVocabularySize := padded } (rows' ++ rest)) := by
  have hlength : (rows ++ rest).length = parameterCount config := by
    rw [List.length_append, hrows, hrest, parameterCount_eq]
  have hlength' : (rows' ++ rest).length = parameterCount { config with paddedVocabularySize := padded } := by
    rw [List.length_append, hrows', hrest, parameterCount_eq]
    simp only [embeddingCount, laterCount]
  have hword : ∀ {i}, i < (rows ++ rest).length →
      some (wordAt (writeCheckpoint version config (rows ++ rest)) (1024 + 4 * i)) = (rows ++ rest)[i]? := by
    intro i hi
    rw [wordAt_writeCheckpoint version config hi, List.getElem?_eq_getElem hi]
  have hword' : ∀ {i}, i < (rows' ++ rest).length →
      some (wordAt (writeCheckpoint version' { config with paddedVocabularySize := padded } (rows' ++ rest)) (1024 + 4 * i)) =
        (rows' ++ rest)[i]? := by
    intro i hi
    rw [wordAt_writeCheckpoint version' _ hi, List.getElem?_eq_getElem hi]
  refine ⟨fileValid_writeCheckpoint h hlength, fileValid_writeCheckpoint h' hlength', ?_, ?_, ?_⟩
  · intro i h2 h6
    obtain rfl | rfl | rfl | rfl | rfl : i = 2 ∨ i = 3 ∨ i = 4 ∨ i = 5 ∨ i = 6 := by omega
    all_goals exact (header_writeCheckpoint _ _ _ rfl).trans (header_writeCheckpoint _ _ _ rfl).symm
  · rw [headerConfig_writeCheckpoint h]
    intro i hi
    have hle := vocabularyCount_le h.valid
    have hle' : vocabularyCount config ≤ padded.toNat * config.channels.toNat := vocabularyCount_le h'.valid
    apply Option.some.inj
    rw [hword (by rw [List.length_append]; omega), hword' (by rw [List.length_append]; omega),
      List.getElem?_append_left (by omega), List.getElem?_append_left (by omega), hsame i hi]
  · rw [headerConfig_writeCheckpoint h, headerConfig_writeCheckpoint h', parameterCount_eq]
    intro i hi
    have hembedding : embeddingCount { config with paddedVocabularySize := padded } = rows'.length := hrows'.symm
    apply Option.some.inj
    rw [hembedding, ← hrows, hword (by rw [List.length_append]; omega), hword' (by rw [List.length_append]; omega),
      List.getElem?_append_right (by omega), List.getElem?_append_right (by omega), Nat.add_sub_cancel_left, Nat.add_sub_cancel_left]

/-! ## Runs on them -/

/-- The hosts construct an executor for the same numbers of threads and throw the same for the others. -/
def Host.Alike {E : Type} (host host' : Host E) : Prop :=
  ∀ threads, refusal (makeExecutor host' threads) = refusal (makeExecutor host threads)

namespace GPT2Model.SameButPadding

variable [Scalar α] {A B : GPT2Model α}

theorem refl (A : GPT2Model α) : A.SameButPadding A where
  config := rfl
  tensors _ _ := rfl
  rows view view' hview hview' i _ := by
    rw [hview, Except.ok.injEq] at hview'
    rw [hview']

theorem logits_eq (h : A.SameButPadding B) {P : List Int32} (hP : Accepted A.weights.config P) : B.logits P = A.logits P :=
  (h.machine_logits_eq A.weights.config.maxSequenceLength hP.valid).symm

open Generate in
/-- The same checks fail. -/
theorem rejection_eq (h : A.SameButPadding B) {host host' : Host (Executor α)} (hosts : host.Alike host')
    (options : Generate.Options) :
    Generate.rejection host' options B.weights.config = Generate.rejection host options A.weights.config := by
  unfold Generate.rejection
  rw [h.config, hosts options.threads]
  rfl

open Generate in
/-- The same is generated, and dumped up to the padding. -/
theorem expected_eq (h : A.SameButPadding B) {options : Generate.Options} (husable : Usable options)
    {host : Host (Executor α)}
    (hruns : Generate.rejection host options A.weights.config = none) :
    (expected options B).tokens = (expected options A).tokens ∧ (expected options B).steps = (expected options A).steps ∧
      (expected options B).dump.map (List.take A.weights.config.vocabularySize.toNat) =
        (expected options A).dump.map (List.take A.weights.config.vocabularySize.toNat) ∧
      (options.mode = .cached → (expected options B).dump = (expected options A).dump) := by
  obtain ⟨hvalid, hcontext, -⟩ := (rejection_eq_none_iff husable).1 hruns
  obtain ⟨htokens, hlines⟩ := greedy_congr (fun P hP => h.logits_eq hP) husable.tokens hvalid hcontext
  have hafter : tokensAfter options B = tokensAfter options A := htokens
  have hlast : B.logits (tokensAfter options A) = A.logits (tokensAfter options A) :=
    h.logits_eq (greedy_accepted husable.tokens hvalid hcontext)
  have hcached : options.mode = .cached → dumped options B = dumped options A := by
    intro hmode
    simp only [dumped, hmode, hafter, hlast]
  refine ⟨htokens, hlines, ?_, hcached⟩
  show (dumped options B).map _ = (dumped options A).map _
  cases hmode : options.mode with
  | cached => rw [hcached hmode]
  | full =>
    have hrow : (paddedLogits B (tokensAfter options A)).take A.weights.config.vocabularySize.toNat =
        (paddedLogits A (tokensAfter options A)).take A.weights.config.vocabularySize.toNat := by
      rw [take_paddedLogits, ← h.dims.2.1, take_paddedLogits, hlast]
    unfold dumped
    rw [hmode, hafter]
    split
    · rfl
    · exact congrArg some hrow

end GPT2Model.SameButPadding

namespace Generate

/-- Each path holds the same file, or none, or files of the same model. -/
structure Files.SameModels (files files' : Files) : Prop where
  checkpoint : ∀ path, files'.checkpoint path = files.checkpoint path ∨
    ∃ file file', files.checkpoint path = some file ∧ files'.checkpoint path = some file' ∧ SameModel file.bytes file'.bytes
  writable : files'.writable = files.writable

variable [Scalar α] {files files' : Files} {host host' : Host (Executor α)}

theorem Files.SameModels.loadModel (h : files.SameModels files') (path : String) :
    (∃ e, (loadModel files path : Except Exc (GPT2Model α)) = .error e ∧
      (loadModel files' path : Except Exc (GPT2Model α)) = .error e) ∨
    ∃ A B : GPT2Model α, Generate.loadModel files path = .ok A ∧ Generate.loadModel files' path = .ok B ∧ A.SameButPadding B := by
  rcases h.checkpoint path with hsame | ⟨file, file', hfile, hfile', hmodel⟩
  · have hloads : (Generate.loadModel files' path : Except Exc (GPT2Model α)) = Generate.loadModel files path := by
      unfold Generate.loadModel
      rw [hsame]
    rw [hloads]
    cases hload : (Generate.loadModel files path : Except Exc (GPT2Model α)) with
    | error e => exact .inl ⟨e, rfl, rfl⟩
    | ok A => exact .inr ⟨A, A, rfl, rfl, .refl A⟩
  · have hA := (loadCheckpoint_ok_iff file (fileModel file.bytes : ModelWeights α)).2 ⟨hmodel.valid, rfl⟩
    have hB := (loadCheckpoint_ok_iff file' (fileModel file'.bytes : ModelWeights α)).2 ⟨hmodel.valid', rfl⟩
    exact .inr ⟨⟨_, file, hA⟩, ⟨_, file', hB⟩, loadModel_ok_iff.2 ⟨file, hfile, hA⟩, loadModel_ok_iff.2 ⟨file', hfile', hB⟩,
      hmodel.sameButPadding hA hB⟩

theorem generate_sameModels (hserves : host.Serves) (hserves' : host'.Serves) (hosts : host.Alike host') (h : files.SameModels files')
    {options : Options} (husable : Usable options) :
    (∃ e, generate files host options = .error e ∧ generate files' host' options = .error e) ∨
      ∃ (model : GPT2Model α) (out out' : Output α), Loads files options.checkpoint model ∧
        generate files host options = .ok out ∧
        generate files' host' options = .ok out' ∧ out'.tokens = out.tokens ∧ out'.steps = out.steps ∧
        out'.dump.map (List.take model.weights.config.vocabularySize.toNat) =
          out.dump.map (List.take model.weights.config.vocabularySize.toNat) ∧
        (options.mode = .cached → out'.dump = out.dump) := by
  rcases h.loadModel (α := α) options.checkpoint with ⟨e, hload, hload'⟩ | ⟨A, B, hload, hload', hmodels⟩
  · exact .inl ⟨e, by rw [generate, hload, error_bind], by rw [generate, hload', error_bind]⟩
  rw [generate_eq hserves husable hload, generate_eq hserves' husable hload', hmodels.rejection_eq hosts, h.writable]
  cases hreject : rejection host options A.weights.config with
  | some e => exact .inl ⟨e, rfl, rfl⟩
  | none =>
    by_cases hdump : options.dumpLastLogits ≠ "" ∧ files.writable options.dumpLastLogits = false
    · simp only [if_pos hdump]
      exact .inl ⟨_, rfl, rfl⟩
    · simp only [if_neg hdump]
      obtain ⟨htokens, hsteps, hreal, hcached⟩ := hmodels.expected_eq husable hreject
      exact .inr ⟨A, _, _, loadModel_ok_iff.1 hload, rfl, rfl, htokens, hsteps, hreal, hcached⟩

/-- **The format of the checkpoint is not seen.** Let every path hold the same file, or files of either version and any
padding that store the same model. Then a run fails on the ones exactly if it fails on the others, with the same
exception, on hosts that refuse the same executors; if it returns, the tokens and the steps are the same, and so are the
logits of the dump that stand for tokens. A command line that dumps nothing, or dumps in cached mode, prints the same and
leaves the same. -/
theorem checkpoint_format_invisible (h : files.SameModels files') (hhost : host.Realizes) (hhost' : host'.Realizes)
    (hosts : host.Alike host') :
    (∀ options, Usable options →
      (∃ e, generate files host options = .error e ∧ generate files' host' options = .error e) ∨
      ∃ (model : GPT2Model α) (out out' : Output α), Loads files options.checkpoint model ∧
        generate files host options = .ok out ∧
        generate files' host' options = .ok out' ∧ out'.tokens = out.tokens ∧ out'.steps = out.steps ∧
        out'.dump.map (List.take model.weights.config.vocabularySize.toNat) =
          out.dump.map (List.take model.weights.config.vocabularySize.toNat) ∧
        (options.mode = .cached → out'.dump = out.dump)) ∧
    ∀ program arguments, (∀ options, parseOptions arguments = .ok (some options) →
        options.dumpLastLogits ≠ "" → options.mode = .cached) →
      main files' host' program arguments = main files host program arguments := by
  have hserves := hhost.serves
  have hserves' := hhost'.serves
  refine ⟨fun options husable => generate_sameModels hserves hserves' hosts h husable, fun program arguments hcached => ?_⟩
  cases hparse : parseOptions arguments with
  | error e => simp only [main, hparse]
  | ok parsed =>
    cases parsed with
    | none => simp only [main, hparse]
    | some options =>
      obtain ⟨s, -, hconsistent, rfl⟩ := parseOptions_ok_iff.1 hparse
      rcases generate_sameModels hserves hserves' hosts h hconsistent.usable with
        ⟨e, herror, herror'⟩ | ⟨model, out, out', -, hout, hout', htokens, hsteps, -, hmode⟩
      · simp only [main, hparse, herror, herror']
      · have hdump : out'.dump = out.dump := by
          by_cases hnone : s.options.dumpLastLogits = ""
          · obtain ⟨A, -, rfl⟩ := (generate_ok_iff hserves hconsistent.usable).1 hout
            obtain ⟨B, -, rfl⟩ := (generate_ok_iff hserves' hconsistent.usable).1 hout'
            exact (dumped_eq_none_iff.2 hnone).trans (dumped_eq_none_iff.2 hnone).symm
          · exact hmode (hcached _ hparse hnone)
        have hsame : out' = out := by
          cases out
          cases out'
          obtain rfl := htokens
          obtain rfl := hsteps
          obtain rfl := hdump
          rfl
        simp only [main, hparse, hout, hout', hsame]

/-- The tiny model in version 3, with a padded row. -/
def tinyPaddedFiles : Files where
  checkpoint _ := some ⟨writeCheckpoint 3 { tinyConfig with paddedVocabularySize := 3 } ([1, 1, 7] ++ List.replicate 29 1),
    by rw [length_writeCheckpoint]; decide⟩
  writable _ := true

theorem tinyFiles_sameModels : tinyFiles.SameModels tinyPaddedFiles where
  checkpoint _ := by
    have hrows : ([1, 1] : List (BitVec 32)).length = embeddingCount tinyConfig := rfl
    have hrows' : ([1, 1, 7] : List (BitVec 32)).length = (3 : UInt64).toNat * tinyConfig.channels.toNat := rfl
    have hrest : (List.replicate 29 1 : List (BitVec 32)).length = laterCount tinyConfig := rfl
    have hwritable : { tinyConfig with paddedVocabularySize := 3 }.Writable 3 := by
      refine ⟨⟨?_, ?_, ?_, ?_, ?_, ?_, ?_⟩, .inr rfl, ?_, ?_, ?_, ?_, ?_, ?_⟩ <;> decide
    have hsame : ∀ i, i < vocabularyCount tinyConfig → ([1, 1, 7] : List (BitVec 32))[i]? = ([1, 1] : List (BitVec 32))[i]? := by decide
    have hmodel := sameModel_writeCheckpoint tinyConfig_writable hwritable hrows hrows' hrest hsame
    rw [show ([1, 1] : List (BitVec 32)) ++ List.replicate 29 1 = List.replicate 31 1 from rfl] at hmodel
    exact .inr ⟨_, _, rfl, rfl, hmodel⟩
  writable := rfl

theorem checkpoint_format_invisible_tiny : ∃ start : UInt64 → Executor Int,
    main tinyPaddedFiles (.granting start) "gpt2_generate" tinyCommand.arguments =
      main tinyFiles (.granting start) "gpt2_generate" tinyCommand.arguments := by
  obtain ⟨start, hhost⟩ := exists_host Int
  have hparse : parseOptions tinyCommand.arguments = .ok (some tinyCommand) :=
    Options.parse_arguments (tinyCommand_consistent (by decide) (by decide))
  refine ⟨start, (checkpoint_format_invisible tinyFiles_sameModels hhost hhost fun _ => rfl).2 _ _ fun options hoptions hdump => ?_⟩
  rw [hparse] at hoptions
  cases hoptions
  rfl

end Generate

end Gpt2Runtime
