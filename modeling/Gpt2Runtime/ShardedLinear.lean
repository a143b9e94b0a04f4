import Gpt2Runtime.KernelBounds
import Gpt2Runtime.Shards
/-
# Sharded linear is scalar linear (`linear_executor.cpp:53-69`, `:104-130`)

| here | there |
| --- | --- |
| `Arrays`               | the four arrays of one call, each an array of its own |
| `Arrays.job`, `Arrays.memory` | the spans over them that `linear` gets, and the floats they name |
| `runShards`            | `run_shard` of the listed shards, one after the other |

The shards of a list write their blocks of channels and nothing else (`runShards_wrote`), whichever comes
first, and all shards together cover the output.
-/

namespace Gpt2Runtime.LinearExecutor

open Loop Flat Word Kernels Intervals

variable {α : Type} {totalThreads : UInt64}

/-! ## Ranges -/

/-- **The ranges tile the output.** -/
theorem shardRanges_tile (outputChannels : UInt64) (hpos : 0 < totalThreads.toNat) :
    Tiles 0 ((List.range totalThreads.toNat).map fun shard =>
      ((shardRange totalThreads outputChannels (UInt64.ofNat shard)).1.toNat,
        (shardRange totalThreads outputChannels (UInt64.ofNat shard)).2.toNat)) outputChannels.toNat := by
  have htiles := Partition.tiles (o := outputChannels.toNat) hpos
  refine (List.map_congr_left fun shard hshard => ?_) ▸ htiles
  obtain ⟨hfirst, hcount⟩ := shardRange_eq outputChannels (List.mem_range.1 hshard)
  rw [hfirst, hcount]

/-- The weight block of a shard: its first entry and size are the natural products. -/
theorem shardRange_weight {inputChannels outputChannels : UInt64}
    (hfit : inputChannels.toNat * outputChannels.toNat < 2 ^ 64) {shard : Nat} (hshard : shard < totalThreads.toNat) :
    ((shardRange totalThreads outputChannels (UInt64.ofNat shard)).1 * inputChannels).toNat =
        (shardRange totalThreads outputChannels (UInt64.ofNat shard)).1.toNat * inputChannels.toNat ∧
      ((shardRange totalThreads outputChannels (UInt64.ofNat shard)).2 * inputChannels).toNat =
        (shardRange totalThreads outputChannels (UInt64.ofNat shard)).2.toNat * inputChannels.toNat := by
  obtain ⟨hfirst, hcount⟩ := shardRange_eq outputChannels hshard
  have hend := Partition.end_le (o := outputChannels.toNat) hshard
  have hle := Nat.mul_le_mul_right inputChannels.toNat hend
  rw [Nat.add_mul, ← hfirst, ← hcount, Nat.mul_comm outputChannels.toNat] at hle
  exact ⟨toNat_mul_of_lt (by omega), toNat_mul_of_lt (by omega)⟩

section
variable {job : Job}

/-! ## Acceptance -/

/-- A check of `linear` that fails throws. -/
theorem Job.check_rejects (h : ¬job.Sized) : ∃ e, job.check = .error e ∧ e ≠ .undefined := by
  unfold Job.check
  by_cases hover : job.inputChannels ≠ 0 ∧ sizeMax / job.inputChannels < job.outputChannels
  · rw [throwIf_of hover]
    exact ⟨_, rfl, by simp⟩
  · rw [throwIf_of_not hover, ok_bind]
    refine ⟨.invalidArgument "linear executor tensor size mismatch", throwIf_of ?_, by simp⟩
    by_contra hsizes
    refine h (Job.check_ok_iff.1 ?_)
    unfold Job.check
    rw [throwIf_of_not hover, ok_bind, throwIf_of_not hsizes]

/-! ## Shards in any order -/

variable [Scalar α]

def runShards (totalThreads : UInt64) (job : Job) (order : List Nat) (memory : Memory α) : Except Exc (Memory α) :=
  order.foldlM (fun memory shard => runShard totalThreads job (UInt64.ofNat shard) memory) memory

/-- The shards of a list leave their channels written, next to those written before. -/
theorem runShards_wrote (h : job.Sized) (hsep : job.Separate) {base : Memory α} :
    ∀ {order : List Nat} {memory : Memory α} {written : Nat → Prop}, (∀ shard ∈ order, shard < totalThreads.toNat) →
      job.Wrote base memory written →
      ∃ memory', runShards totalThreads job order memory = .ok memory' ∧
        job.Wrote base memory' fun o => written o ∨ ∃ shard ∈ order, shardFirst totalThreads job shard ≤ o ∧
          o < shardFirst totalThreads job shard + shardCount totalThreads job shard
  | [], memory, written, _, hwrote => by
    exact ⟨memory, rfl, hwrote.congr fun o => by simp⟩
  | shard :: order, memory, written, hlt, hwrote => by
    have hshard := hlt shard (by simp)
    have hrest : ∀ s ∈ order, s < totalThreads.toNat := fun s hs => hlt s (by simp [hs])
    have hfirst := hwrote.writes h hsep (shard_end_le hshard)
    obtain ⟨memory', hrun, hwrote'⟩ := runShards_wrote h hsep hrest hfirst
    refine ⟨memory', ?_, hwrote'.congr fun o => by simp [or_assoc]⟩
    rw [runShards, List.foldlM_cons, runShard_eq_writes h hsep hshard, ok_bind]
    exact hrun

/-- **All shards, in any order**, leave what the scalar kernel leaves. -/
theorem runShards_eq_scalar (h : job.Sized) (hsep : job.Separate) (hpos : 0 < totalThreads.toNat) (memory : Memory α)
    {order : List Nat} (horder : order.Perm (List.range totalThreads.toNat)) :
    ∃ memory', runShards totalThreads job order memory = .ok memory' ∧ job.scalar memory = .ok memory' ∧
      ∀ a, ¬job.output.Covers a → memory' a = memory a := by
  have hmem : ∀ shard, shard ∈ order ↔ shard < totalThreads.toNat := by
    intro shard
    rw [horder.mem_iff, List.mem_range]
  obtain ⟨memory', hrun, hwrote⟩ := runShards_wrote h hsep (fun shard hs => (hmem shard).1 hs) (Job.Wrote.refl job memory)
  refine ⟨memory', hrun, hwrote.complete h ?_, fun a ha => hwrote.outside h ha⟩
  intro o ho
  obtain ⟨shard, c, hshard, hc, rfl⟩ := exists_shard hpos ho
  exact .inr ⟨shard, (hmem shard).2 hshard, Nat.le_add_right _ _, Nat.add_lt_add_left hc _⟩

end

/-! ## Arrays -/

/-- What was stored is there. -/
theorem Span.values_store [Zero α] {span : Span} {values : List α} (h : values.length = span.size.toNat) (memory : Memory α) :
    span.values (span.store values memory) = values := by
  have hvec := IsVec.of_length (0 : α) h
  refine (span.values_vec _).unique (hvec.congr fun i hi => ?_)
  rw [Span.store_eq hvec]
  show _ = if span.Covers (span.data + i) then values.getD (span.data + i - span.data) 0 else _
  rw [if_pos ⟨Nat.le_add_right _ _, Nat.add_lt_add_left hi _⟩, Nat.add_sub_cancel_left]

variable [Scalar α]

structure Arrays (α : Type) where
  output : List α
  input : List α
  weight : List α
  bias : List α
  output_lt : output.length < 2 ^ 64
  input_lt : input.length < 2 ^ 64
  weight_lt : weight.length < 2 ^ 64
  bias_lt : bias.length < 2 ^ 64

namespace Arrays

/-- One array after the other. -/
def memory (arrays : Arrays α) : Memory α := fun address =>
  (arrays.output ++ (arrays.input ++ (arrays.weight ++ arrays.bias))).getD address 0

def job (arrays : Arrays α) (inputChannels outputChannels : UInt64) : Job where
  output := ⟨0, UInt64.ofNat arrays.output.length⟩
  input := ⟨arrays.output.length, UInt64.ofNat arrays.input.length⟩
  weight := ⟨arrays.output.length + arrays.input.length, UInt64.ofNat arrays.weight.length⟩
  bias := ⟨arrays.output.length + arrays.input.length + arrays.weight.length, UInt64.ofNat arrays.bias.length⟩
  inputChannels
  outputChannels

variable (arrays : Arrays α) (inputChannels outputChannels : UInt64)

/-- A span over the middle of a list of floats names that part. -/
theorem values_middle {pre values post floats : List α} {data : Nat} (hfloats : floats = pre ++ (values ++ post))
    (hdata : data = pre.length) (hlt : values.length < 2 ^ 64) :
    (⟨data, UInt64.ofNat values.length⟩ : Span).values (fun address => floats.getD address 0) = values := by
  subst hfloats hdata
  refine (Span.values_vec _ _).unique ?_
  rw [toNat_ofNat_of_lt hlt]
  refine ⟨rfl, fun i hi => ?_⟩
  show values[i]? = some ((pre ++ (values ++ post)).getD (pre.length + i) 0)
  rw [List.getD_eq_getElem?_getD, List.getElem?_append_right (Nat.le_add_right _ _), Nat.add_sub_cancel_left,
    List.getElem?_append_left hi, List.getElem?_eq_getElem hi, Option.getD_some]

omit [Scalar α] in
theorem separate : (arrays.job inputChannels outputChannels).Separate := by
  intro address hout
  obtain ⟨-, hlt⟩ := hout
  simp only [job, toNat_ofNat_of_lt arrays.output_lt] at hlt
  refine ⟨?_, ?_, ?_⟩ <;> rintro ⟨hle, -⟩ <;> simp only [job] at hle <;> omega

/-- The kernel on the spans is the kernel on the arrays. -/
theorem scalar_eq : (arrays.job inputChannels outputChannels).scalar arrays.memory =
    (do
      let values ← linear arrays.output arrays.input arrays.weight arrays.bias 1 inputChannels outputChannels
      pure ((arrays.job inputChannels outputChannels).output.store values arrays.memory)) := by
  have hout : (arrays.job inputChannels outputChannels).output.values arrays.memory = arrays.output :=
    values_middle (List.nil_append _).symm rfl arrays.output_lt
  have hin : (arrays.job inputChannels outputChannels).input.values arrays.memory = arrays.input :=
    values_middle rfl rfl arrays.input_lt
  have hweight : (arrays.job inputChannels outputChannels).weight.values arrays.memory = arrays.weight :=
    values_middle (List.append_assoc _ _ _).symm (List.length_append).symm arrays.weight_lt
  have hbias : (arrays.job inputChannels outputChannels).bias.values arrays.memory = arrays.bias := by
    refine @values_middle _ _ (arrays.output ++ arrays.input ++ arrays.weight) _ [] _ _ ?_ ?_ arrays.bias_lt
    · rw [List.append_nil, List.append_assoc, List.append_assoc]
    · rw [List.length_append, List.length_append]
  rw [Job.scalar, linearOn, hout, hin, hweight, hbias]
  rfl

variable {inputChannels outputChannels}

omit [Scalar α] in
/-- The executor's checks are the kernel's, for sizes whose product fits. -/
theorem sized_iff (hfit : inputChannels.toNat * outputChannels.toNat < 2 ^ 64) :
    (arrays.job inputChannels outputChannels).Sized ↔
      LinearChecks arrays.output arrays.input arrays.weight arrays.bias 1 inputChannels outputChannels := by
  have hsize : ∀ {n : Nat} {d : UInt64}, n < 2 ^ 64 → (UInt64.ofNat n = d ↔ n = d.toNat) := by
    intro n d hn
    rw [← UInt64.toNat_inj, toNat_ofNat_of_lt hn]
  have hproduct : (outputChannels * inputChannels).toNat = outputChannels.toNat * inputChannels.toNat :=
    toNat_mul_of_lt (by rwa [Nat.mul_comm])
  have hout : (arrays.job inputChannels outputChannels).output.size = outputChannels ↔
      arrays.output.length = (1 * outputChannels).toNat := by
    rw [one_mul]
    exact hsize arrays.output_lt
  have hin : (arrays.job inputChannels outputChannels).input.size = inputChannels ↔
      arrays.input.length = (1 * inputChannels).toNat := by
    rw [one_mul]
    exact hsize arrays.input_lt
  have hweight : (arrays.job inputChannels outputChannels).weight.size.toNat = outputChannels.toNat * inputChannels.toNat ↔
      arrays.weight.length = (outputChannels * inputChannels).toNat := by
    rw [hproduct]
    exact Eq.congr_left (toNat_ofNat_of_lt arrays.weight_lt)
  have hbias : ((arrays.job inputChannels outputChannels).bias.size = 0 ∨
      (arrays.job inputChannels outputChannels).bias.size = outputChannels) ↔
      (arrays.bias = [] ∨ arrays.bias.length = outputChannels.toNat) := by
    refine or_congr ?_ (hsize arrays.bias_lt)
    rw [← List.length_eq_zero_iff]
    exact hsize arrays.bias_lt
  constructor
  · rintro ⟨ho, hi, hw, hb⟩
    exact ⟨hout.1 ho, hin.1 hi, hweight.1 hw, hbias.1 hb⟩
  · rintro ⟨ho, hi, hw, hb⟩
    exact ⟨hout.2 ho, hin.2 hi, hweight.2 hw, hbias.2 hb⟩

/-- One row of sizes whose product fits is in bounds. -/
theorem linear_ok_iff (hfit : inputChannels.toNat * outputChannels.toNat < 2 ^ 64) :
    (∃ values, linear arrays.output arrays.input arrays.weight arrays.bias 1 inputChannels outputChannels = .ok values) ↔
      LinearChecks arrays.output arrays.input arrays.weight arrays.bias 1 inputChannels outputChannels := by
  have hin := toNat_lt inputChannels
  have hout := toNat_lt outputChannels
  have hone : (1 : UInt64).toNat = 1 := rfl
  constructor
  · rintro ⟨values, hok⟩
    by_contra hno
    obtain ⟨text, herr⟩ := linear_rejects hno
    rw [hok] at herr
    exact absurd herr (by simp)
  · intro h
    refine linear_returns h (.inr (.inr ⟨?_, ?_, ?_⟩))
    · rwa [hone, Nat.one_mul]
    · rwa [hone, Nat.one_mul]
    · rwa [Nat.mul_comm]

end Arrays

/-- **Sharded linear equals scalar linear**: the same calls are accepted, the ranges of the shards tile the
output without a wrapped value, no shard leaves a span or fails a check, and the shards leave the scalar
kernel's output whatever their order. -/
theorem sharded_linear_eq_scalar (totalThreads inputChannels outputChannels : UInt64) (hpos : 1 ≤ totalThreads.toNat)
    (hfit : inputChannels.toNat * outputChannels.toNat < 2 ^ 64) (arrays : Arrays α) :
    ((arrays.job inputChannels outputChannels).check = .ok () ↔ ∃ values,
      linear arrays.output arrays.input arrays.weight arrays.bias 1 inputChannels outputChannels = .ok values) ∧
    ((∃ e, (arrays.job inputChannels outputChannels).check = .error e) ↔ ∃ text,
      linear arrays.output arrays.input arrays.weight arrays.bias 1 inputChannels outputChannels =
        .error (.invalidArgument text)) ∧
    Tiles 0 ((List.range totalThreads.toNat).map fun shard =>
      ((shardRange totalThreads outputChannels (UInt64.ofNat shard)).1.toNat,
        (shardRange totalThreads outputChannels (UInt64.ofNat shard)).2.toNat)) outputChannels.toNat ∧
    (∀ shard, shard < totalThreads.toNat →
      (shardRange totalThreads outputChannels (UInt64.ofNat shard)).1.toNat =
        shard * (outputChannels.toNat / totalThreads.toNat) + min shard (outputChannels.toNat % totalThreads.toNat) ∧
      ((shardRange totalThreads outputChannels (UInt64.ofNat shard)).1 * inputChannels).toNat =
        (shardRange totalThreads outputChannels (UInt64.ofNat shard)).1.toNat * inputChannels.toNat ∧
      ((shardRange totalThreads outputChannels (UInt64.ofNat shard)).2 * inputChannels).toNat =
        (shardRange totalThreads outputChannels (UInt64.ofNat shard)).2.toNat * inputChannels.toNat) ∧
    ∀ values, linear arrays.output arrays.input arrays.weight arrays.bias 1 inputChannels outputChannels = .ok values →
      (∀ shard memory, shard < totalThreads.toNat → ∃ memory' : Memory α,
        runShard totalThreads (arrays.job inputChannels outputChannels) (UInt64.ofNat shard) memory = .ok memory') ∧
      ∀ order : List Nat, order.Perm (List.range totalThreads.toNat) → ∃ memory',
        runShards totalThreads (arrays.job inputChannels outputChannels) order arrays.memory = .ok memory' ∧
        (arrays.job inputChannels outputChannels).output.values memory' = values ∧
        ∀ a, ¬(arrays.job inputChannels outputChannels).output.Covers a → memory' a = arrays.memory a := by
  have hsized := arrays.sized_iff hfit
  have haccepted := arrays.linear_ok_iff hfit
  refine ⟨?_, ?_, shardRanges_tile outputChannels hpos, ?_, ?_⟩
  · rw [haccepted, ← hsized, Job.check_ok_iff]
  · constructor
    · rintro ⟨e, he⟩
      refine linear_rejects fun h => ?_
      rw [Job.check_ok_iff.2 (hsized.2 h)] at he
      exact absurd he (by simp)
    · rintro ⟨text, htext⟩
      have hno : ¬(arrays.job inputChannels outputChannels).Sized := by
        intro h
        obtain ⟨values, hvalues⟩ := haccepted.2 (hsized.1 h)
        rw [hvalues] at htext
        exact absurd htext (by simp)
      obtain ⟨e, he, -⟩ := Job.check_rejects hno
      exact ⟨e, he⟩
  · intro shard hshard
    exact ⟨(shardRange_eq outputChannels hshard).1, shardRange_weight hfit hshard⟩
  · intro values hvalues
    have h := hsized.2 (haccepted.1 ⟨values, hvalues⟩)
    refine ⟨fun shard memory hshard => ⟨_, runShard_ok h hshard memory⟩, ?_⟩
    intro order horder
    obtain ⟨memory', hrun, hscalar, hframe⟩ := runShards_eq_scalar h (arrays.separate _ _) hpos arrays.memory horder
    refine ⟨memory', hrun, ?_, hframe⟩
    rw [Arrays.scalar_eq, hvalues, ok_bind] at hscalar
    obtain rfl : _ = memory' := Except.ok.inj hscalar
    refine Span.values_store ?_ _
    rw [linear_length (haccepted.1 ⟨values, hvalues⟩) hvalues]
    exact (toNat_ofNat_of_lt arrays.output_lt).symm

def smallArrays : Arrays Int where
  output := [0, 0]
  input := [2]
  weight := [3, 4]
  bias := [1, 1]
  output_lt := by decide
  input_lt := by decide
  weight_lt := by decide
  bias_lt := by decide

/-- Two shards, the second one first. -/
theorem sharded_linear_eq_scalar_small : ∃ memory',
    runShards 2 (smallArrays.job 1 2) [1, 0] smallArrays.memory = .ok memory' ∧
      (smallArrays.job 1 2).output.values memory' = [7, 9] := by
  obtain ⟨-, -, -, -, hrun⟩ := sharded_linear_eq_scalar 2 1 2 (by decide) (by decide) smallArrays
  obtain ⟨memory', hok, hvalues, -⟩ := (hrun [7, 9] (by decide)).2 [1, 0] (by decide)
  exact ⟨memory', hok, hvalues⟩

end Gpt2Runtime.LinearExecutor
