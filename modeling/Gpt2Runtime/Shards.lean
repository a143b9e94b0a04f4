import Gpt2Runtime.LinearExecutor
import Gpt2Runtime.KernelSpecs
import Gpt2Runtime.Lib.Partition
/-
# What a shard writes

`run_shard`, run on its own, returns and writes its block of output channels, each with the value
`kernels::linear` computes for it (`runShard_ok`, `runShard_eq_writes`), and the blocks partition the
output. A channel's value does not depend on the output span (`channel_congr`), so the writes of the
shards commute and any interleaving of them leaves what the scalar kernel leaves (`Job.scalar_ok`).
-/

namespace Gpt2Runtime.LinearExecutor

open Loop Flat Word Kernels

variable {α : Type}

/-! ## Sizes -/

theorem toNat_min (a b : UInt64) : (min a b).toNat = min a.toNat b.toNat := by
  have hmin : min a b = if a ≤ b then a else b := rfl
  rw [hmin, Nat.min_def]
  simp only [le_iff]
  split <;> rfl

/-- The block of a shard is the partition's, without wrapping. -/
theorem shardRange_eq {totalThreads : UInt64} (outputChannels : UInt64) {shard : Nat} (hshard : shard < totalThreads.toNat) :
    (shardRange totalThreads outputChannels (UInt64.ofNat shard)).1.toNat =
        Partition.start totalThreads.toNat outputChannels.toNat shard ∧
      (shardRange totalThreads outputChannels (UInt64.ofNat shard)).2.toNat =
        Partition.size totalThreads.toNat outputChannels.toNat shard := by
  have hT := toNat_lt totalThreads
  have hO := toNat_lt outputChannels
  have hend := Partition.end_le (o := outputChannels.toNat) hshard
  have hs : (UInt64.ofNat shard).toNat = shard := toNat_ofNat_of_lt (by omega)
  have hblock : (outputChannels / totalThreads).toNat = outputChannels.toNat / totalThreads.toNat := UInt64.toNat_div _ _
  have hrem : (outputChannels % totalThreads).toNat = outputChannels.toNat % totalThreads.toNat := UInt64.toNat_mod _ _
  unfold Partition.start Partition.size at hend
  constructor
  · have hmin : (min (UInt64.ofNat shard) (outputChannels % totalThreads)).toNat =
        min shard (outputChannels.toNat % totalThreads.toNat) := by rw [toNat_min, hs, hrem]
    have hmul := toNat_mul_eq hs hblock (by omega)
    exact toNat_add_eq hmul hmin (by omega)
  · have hone : (if UInt64.ofNat shard < outputChannels % totalThreads then (1 : UInt64) else 0).toNat =
        if shard < outputChannels.toNat % totalThreads.toNat then 1 else 0 := by
      simp only [lt_iff, hs, hrem]
      split <;> rfl
    exact toNat_add_eq hblock hone (by omega)

variable {job : Job} {totalThreads : UInt64}

theorem shard_end_le {shard : Nat} (hshard : shard < totalThreads.toNat) :
    shardFirst totalThreads job shard + shardCount totalThreads job shard ≤ job.outputChannels.toNat := by
  obtain ⟨hfirst, hcount⟩ := shardRange_eq job.outputChannels hshard
  have hend := Partition.end_le (o := job.outputChannels.toNat) hshard
  rwa [← hfirst, ← hcount] at hend

theorem shard_channel_lt {shard c : Nat} (hshard : shard < totalThreads.toNat) (hc : c < shardCount totalThreads job shard) :
    shardFirst totalThreads job shard + c < job.outputChannels.toNat :=
  Nat.lt_of_lt_of_le (Nat.add_lt_add_left hc _) (shard_end_le hshard)

/-- Every output channel belongs to a shard. -/
theorem exists_shard (hpos : 0 < totalThreads.toNat) {o : Nat} (ho : o < job.outputChannels.toNat) :
    ∃ shard c, shard < totalThreads.toNat ∧ c < shardCount totalThreads job shard ∧
      o = shardFirst totalThreads job shard + c := by
  obtain ⟨shard, c, hshard, hc, rfl⟩ := Partition.exists_block hpos ho
  obtain ⟨hfirst, hcount⟩ := shardRange_eq job.outputChannels hshard
  refine ⟨shard, c, hshard, ?_, ?_⟩
  · rw [shardCount, hcount]
    exact hc
  · rw [shardFirst, hfirst]

/-- The spans of a job that passed the checks of `linear`. -/
structure Job.Sized (job : Job) : Prop where
  output : job.output.size = job.outputChannels
  input : job.input.size = job.inputChannels
  weight : job.weight.size.toNat = job.outputChannels.toNat * job.inputChannels.toNat
  bias : job.bias.size = 0 ∨ job.bias.size = job.outputChannels

theorem Job.check_ok_iff : job.check = .ok () ↔ job.Sized := by
  unfold Job.check
  rw [throwIf_bind_ok, throwIf_ok_iff, mul_guard_iff]
  simp only [not_or, not_and, not_not, not_le]
  constructor
  · rintro ⟨hfit, hout, hin, hw, hb⟩
    refine ⟨hout, hin, ?_, ?_⟩
    · rw [hw, toNat_mul_of_lt hfit, Nat.mul_comm]
    · by_cases h0 : job.bias.size = 0
      · exact .inl h0
      · exact .inr (hb h0)
  · rintro ⟨hout, hin, hw, hb⟩
    have hfit : job.inputChannels.toNat * job.outputChannels.toNat < 2 ^ 64 := by
      rw [Nat.mul_comm, ← hw]
      exact toNat_lt _
    refine ⟨hfit, hout, hin, ?_, fun h0 => ?_⟩
    · rw [← UInt64.toNat_inj, toNat_mul_of_lt hfit, hw, Nat.mul_comm]
    · rcases hb with hb | hb
      · exact absurd hb h0
      · exact hb

/-! ## Spans -/

theorem Span.values_vec (span : Span) (memory : Memory α) :
    IsVec (span.values memory) span.size.toNat fun i => memory (span.data + i) := by
  refine ⟨by simp [Span.values], fun i hi => ?_⟩
  simp [Span.values, hi]

theorem Span.store_eq {span : Span} {values : List α} {g : Nat → α} (h : IsVec values span.size.toNat g)
    (memory : Memory α) :
    span.store values memory = fun a => if span.Covers a then g (a - span.data) else memory a := by
  funext a
  by_cases hc : span.Covers a
  · obtain ⟨hle, hlt⟩ := hc
    rw [Span.store, if_pos hle, if_pos ⟨hle, hlt⟩, h.2 _ (by omega), Option.getD_some]
  · rw [if_neg hc, Span.store]
    by_cases hle : span.data ≤ a
    · have hge : ¬a < span.data + span.size.toNat := fun hlt => hc ⟨hle, hlt⟩
      rw [if_pos hle, List.getElem?_eq_none (by rw [h.1]; omega), Option.getD_none]
    · rw [if_neg hle]

theorem Span.subspan_ok {span : Span} {offset count : UInt64} (h : offset.toNat + count.toNat ≤ span.size.toNat) :
    span.subspan offset count = .ok ⟨span.data + offset.toNat, count⟩ := if_pos h

variable [Scalar α]

/-- The kernel on spans of matching sizes. -/
theorem linearOn_ok {output input weight bias : Span} {inputChannels outputChannels : UInt64} {b : Nat → α}
    (memory : Memory α) (hout : output.size = outputChannels) (hin : input.size = inputChannels)
    (hw : weight.size.toNat = outputChannels.toNat * inputChannels.toNat)
    (hb : IsBias (bias.values memory) outputChannels.toNat b) :
    linearOn output input weight bias inputChannels outputChannels memory = .ok fun a =>
      if output.Covers a then
        linearRow inputChannels.toNat (fun i => memory (input.data + i))
          (fun o i => memory (weight.data + (o * inputChannels.toNat + i))) b (a - output.data)
      else memory a := by
  have hwt : outputChannels.toNat * inputChannels.toNat < 2 ^ 64 := by
    rw [← hw]
    exact toNat_lt _
  have hweight := weight.values_vec memory
  rw [hw] at hweight
  obtain ⟨values, hvalues, hvec⟩ := linear_row_ok inputChannels outputChannels hwt ((output.values_vec memory).1.trans (by rw [hout]))
    (by rw [← hin]; exact input.values_vec memory) hweight.toMat hb
  rw [← hout] at hvec
  rw [linearOn, hvalues, ok_bind, pure_ok, Span.store_eq hvec]

/-- The buffer after the whole job. -/
def Job.execute (job : Job) (memory : Memory α) : Memory α := fun a =>
  if job.output.Covers a then job.channel memory (a - job.output.data) else memory a

theorem Job.Sized.isBias (h : job.Sized) (memory : Memory α) :
    IsBias (job.bias.values memory) job.outputChannels.toNat
      (fun o => if job.bias.size = 0 then 0 else memory (job.bias.data + o)) := by
  by_cases h0 : job.bias.size = 0
  · refine .inl ⟨by simp [Span.values, h0], by simp [h0]⟩
  · have hvec := job.bias.values_vec memory
    have hb : job.bias.size = job.outputChannels := by
      rcases h.bias with hb | hb
      · exact absurd hb h0
      · exact hb
    have hpos := Word.pos_of_ne_zero h0
    simp only [if_neg h0]
    rw [hb] at hpos hvec
    exact .of_vec hpos hvec

/-- **The scalar fallback** returns. -/
theorem Job.scalar_ok (h : job.Sized) (memory : Memory α) : job.scalar memory = .ok (job.execute memory) :=
  linearOn_ok memory h.output h.input h.weight (h.isBias memory)

/-- A block of channels: the kernel on the block's subspans. -/
theorem linearOn_block (h : job.Sized) {first count : UInt64} (hpos : count ≠ 0)
    (hend : first.toNat + count.toNat ≤ job.outputChannels.toNat) (memory : Memory α) :
    (do
      let bias ← biasSubspan job.bias first count
      let output ← job.output.subspan first count
      let weight ← job.weight.subspan (first * job.inputChannels) (count * job.inputChannels)
      linearOn output job.input weight bias job.inputChannels count memory) = .ok fun a =>
        if job.output.data + first.toNat ≤ a ∧ a < job.output.data + (first.toNat + count.toNat) then
          job.channel memory (a - job.output.data)
        else memory a := by
  have hweightSize := toNat_lt job.weight.size
  have hC := Nat.mul_le_mul_right job.inputChannels.toNat hend
  rw [← h.weight, Nat.add_mul] at hC
  have hwf : (first * job.inputChannels).toNat = first.toNat * job.inputChannels.toNat := toNat_mul_eq rfl rfl (by omega)
  have hwc : (count * job.inputChannels).toNat = count.toNat * job.inputChannels.toNat := toNat_mul_eq rfl rfl (by omega)
  obtain ⟨bias, hbias, hisBias⟩ : ∃ bias, biasSubspan job.bias first count = .ok bias ∧
      IsBias (bias.values memory) count.toNat
        (fun o => if job.bias.size = 0 then 0 else memory (job.bias.data + (first.toNat + o))) := by
    unfold biasSubspan
    by_cases h0 : job.bias.size = 0
    · exact ⟨.empty, if_pos h0, .inl ⟨rfl, by simp [h0]⟩⟩
    · have hb : job.bias.size = job.outputChannels := by
        rcases h.bias with hb | hb
        · exact absurd hb h0
        · exact hb
      refine ⟨⟨job.bias.data + first.toNat, count⟩, ?_, ?_⟩
      · rw [if_neg h0, Span.subspan_ok (by rw [hb]; exact hend)]
      · simp only [if_neg h0, ← Nat.add_assoc]
        exact .of_vec (Word.pos_of_ne_zero hpos) (Span.values_vec _ memory)
  have hout : job.output.subspan first count = .ok ⟨job.output.data + first.toNat, count⟩ :=
    Span.subspan_ok (by rw [h.output]; exact hend)
  have hweight : job.weight.subspan (first * job.inputChannels) (count * job.inputChannels) =
      .ok ⟨job.weight.data + (first * job.inputChannels).toNat, count * job.inputChannels⟩ :=
    Span.subspan_ok (by rw [hwf, hwc]; exact hC)
  simp only [hbias, hout, hweight, ok_bind]
  rw [linearOn_ok memory rfl h.input hwc hisBias, hwf]
  refine congrArg _ (funext fun a => ?_)
  by_cases hc : (⟨job.output.data + first.toNat, count⟩ : Span).Covers a
  · rw [if_pos hc]
    obtain ⟨hlo, hhi⟩ : job.output.data + first.toNat ≤ a ∧ a < job.output.data + first.toNat + count.toNat := hc
    rw [if_pos ⟨hlo, by omega⟩]
    -- the block's channel `o` is the job's channel `first + o`
    obtain ⟨o, rfl⟩ : ∃ o, a = job.output.data + first.toNat + o := ⟨a - (job.output.data + first.toNat), by omega⟩
    have hsub : job.output.data + first.toNat + o - job.output.data = first.toNat + o := by omega
    have hsub' : job.output.data + first.toNat + o - (job.output.data + first.toNat) = o := by omega
    simp only [hsub, hsub']
    simp only [Job.channel, linearRow, Nat.add_mul, Nat.add_assoc]
  · have hout' : ¬(job.output.data + first.toNat ≤ a ∧ a < job.output.data + (first.toNat + count.toNat)) := by
      rintro ⟨hlo, hhi⟩
      exact hc ⟨hlo, show a < job.output.data + first.toNat + count.toNat by omega⟩
    rw [if_neg hc, if_neg hout']

/-- **A shard**, run on its own, returns and writes its block of channels. -/
theorem runShard_ok (h : job.Sized) {shard : Nat} (hshard : shard < totalThreads.toNat) (memory : Memory α) :
    runShard totalThreads job (UInt64.ofNat shard) memory = .ok fun a =>
      if job.output.data + shardFirst totalThreads job shard ≤ a ∧
          a < job.output.data + (shardFirst totalThreads job shard + shardCount totalThreads job shard) then
        job.channel memory (a - job.output.data)
      else memory a := by
  obtain ⟨hfirst, hcount⟩ := shardRange_eq job.outputChannels hshard
  have hend := Partition.end_le (o := job.outputChannels.toNat) hshard
  rw [← hfirst, ← hcount] at hend
  unfold runShard shardFirst shardCount
  by_cases hzero : (shardRange totalThreads job.outputChannels (UInt64.ofNat shard)).2 = 0
  · simp only [hzero, if_true]
    refine congrArg _ (funext fun a => (if_neg fun ha => ?_).symm)
    rw [show (0 : UInt64).toNat = 0 from rfl] at ha
    omega
  · simp only [hzero, if_false]
    exact linearOn_block h hzero hend memory

/-! ## Interleaved writes -/

/-- A channel's value does not depend on the floats of the output. -/
theorem channel_congr (h : job.Sized) (hsep : job.Separate) {memory memory' : Memory α}
    (heq : ∀ a, ¬job.output.Covers a → memory a = memory' a) {o : Nat} (ho : o < job.outputChannels.toNat) :
    job.channel memory o = job.channel memory' o := by
  have hread : ∀ {a}, job.input.Covers a ∨ job.weight.Covers a ∨ job.bias.Covers a → memory a = memory' a := by
    intro a ha
    refine heq a fun hout => ?_
    obtain ⟨hin, hw, hb⟩ := hsep a hout
    rcases ha with ha | ha | ha
    · exact hin ha
    · exact hw ha
    · exact hb ha
  have hbias : (if job.bias.size = 0 then (0 : α) else memory (job.bias.data + o)) =
      if job.bias.size = 0 then 0 else memory' (job.bias.data + o) := by
    by_cases h0 : job.bias.size = 0
    · rw [if_pos h0, if_pos h0]
    · rw [if_neg h0, if_neg h0]
      refine hread (.inr (.inr ⟨Nat.le_add_right _ _, ?_⟩))
      rcases h.bias with hb | hb
      · exact absurd hb h0
      · rw [hb]; omega
  simp only [Job.channel, linearRow, sumFrom, hbias]
  refine foldN_congr fun i acc hi => ?_
  have hin : memory (job.input.data + i) = memory' (job.input.data + i) :=
    hread (.inl ⟨Nat.le_add_right _ _, by rw [h.input]; omega⟩)
  have hw : memory (job.weight.data + (o * job.inputChannels.toNat + i)) =
      memory' (job.weight.data + (o * job.inputChannels.toNat + i)) :=
    hread (.inr (.inl ⟨Nat.le_add_right _ _, by rw [h.weight]; have := idx_lt ho hi; omega⟩))
  simp only [hin, hw]

/-- `memory` is `base` with the channels `written` computed and written. -/
structure Job.Wrote (job : Job) (base memory : Memory α) (written : Nat → Prop) : Prop where
  lt : ∀ o, written o → o < job.outputChannels.toNat
  value : ∀ o, written o → memory (job.output.data + o) = job.channel base o
  frame : ∀ a, (∀ o, written o → a ≠ job.output.data + o) → memory a = base a

namespace Job.Wrote

variable {base memory memory' : Memory α} {written written' : Nat → Prop}

theorem refl (job : Job) (base : Memory α) : job.Wrote base base fun _ => False :=
  ⟨fun _ h => h.elim, fun _ h => h.elim, fun _ _ => rfl⟩

theorem congr (h : job.Wrote base memory written) (heq : ∀ o, written' o ↔ written o) : job.Wrote base memory written' :=
  ⟨fun o ho => h.lt o ((heq o).1 ho), fun o ho => h.value o ((heq o).1 ho),
    fun a ha => h.frame a fun o ho => ha o ((heq o).2 ho)⟩

/-- The floats outside the output are untouched. -/
theorem outside (h : job.Wrote base memory written) (hsized : job.Sized) {a : Nat} (ha : ¬job.output.Covers a) :
    memory a = base a := by
  refine h.frame a ?_
  rintro o ho rfl
  refine ha ⟨Nat.le_add_right _ _, ?_⟩
  rw [hsized.output]
  exact Nat.add_lt_add_left (h.lt o ho) _

/-- One more write, by whoever is next: the value does not depend on what the others have written. -/
theorem write (h : job.Wrote base memory written) (hsized : job.Sized) (hsep : job.Separate) {o : Nat}
    (ho : o < job.outputChannels.toNat) : job.Wrote base (job.write o memory) fun o' => written o' ∨ o' = o := by
  have hvalue : job.channel memory o = job.channel base o :=
    channel_congr hsized hsep (fun a ha => h.outside hsized ha) ho
  refine ⟨?_, ?_, ?_⟩
  · rintro o' (ho' | rfl)
    · exact h.lt o' ho'
    · exact ho
  · rintro o' ho'
    unfold Job.write
    by_cases heq : o' = o
    · rw [heq, Function.update_self, hvalue]
    · rw [Function.update_of_ne (by omega)]
      rcases ho' with ho' | ho'
      · exact h.value o' ho'
      · exact absurd ho' heq
  · intro a ha
    rw [Job.write, Function.update_of_ne (ha o (.inr rfl))]
    exact h.frame a fun o' ho' => ha o' (.inl ho')

/-- The written channels determine the memory. -/
theorem unique (h : job.Wrote base memory written) (h' : job.Wrote base memory' written) : memory = memory' := by
  funext a
  by_cases ha : ∃ o, written o ∧ a = job.output.data + o
  · obtain ⟨o, ho, rfl⟩ := ha
    rw [h.value o ho, h'.value o ho]
  · have hframe : ∀ o, written o → a ≠ job.output.data + o := fun o ho heq => ha ⟨o, ho, heq⟩
    rw [h.frame a hframe, h'.frame a hframe]

/-- A block of channels at once. -/
theorem block (base : Memory α) {first count : Nat} (hend : first + count ≤ job.outputChannels.toNat) :
    job.Wrote base (fun a => if job.output.data + first ≤ a ∧ a < job.output.data + (first + count) then
      job.channel base (a - job.output.data) else base a) fun o => first ≤ o ∧ o < first + count := by
  refine ⟨fun o ho => by omega, fun o ho => ?_, fun a ha => if_neg ?_⟩
  · rw [if_pos ⟨by omega, by omega⟩, Nat.add_sub_cancel_left]
  · rintro ⟨hlo, hhi⟩
    exact ha (a - job.output.data) ⟨by omega, by omega⟩ (by omega)

/-- Once every channel is written, this is the memory the scalar kernel leaves. -/
theorem complete (h : job.Wrote base memory written) (hsized : job.Sized)
    (hall : ∀ o, o < job.outputChannels.toNat → written o) : job.scalar base = .ok memory := by
  have hexecute : job.Wrote base (job.execute base) fun o => 0 ≤ o ∧ o < 0 + job.outputChannels.toNat := by
    have hblock := block base (Nat.le_of_eq (Nat.zero_add job.outputChannels.toNat))
    rw [Nat.zero_add, Nat.add_zero, ← hsized.output] at hblock
    rwa [Nat.zero_add, ← hsized.output]
  rw [Job.scalar_ok hsized]
  refine congrArg _ (hexecute.unique (h.congr fun o => ⟨fun ho => hall o (by omega), fun ho => ?_⟩))
  have := h.lt o ho
  omega

/-- The channels from `first` on, written one after the other. -/
theorem writes (h : job.Wrote base memory written) (hsized : job.Sized) (hsep : job.Separate) {first : Nat} :
    ∀ {n : Nat}, first + n ≤ job.outputChannels.toNat →
      job.Wrote base (foldN n memory fun c memory => job.write (first + c) memory)
        fun o => written o ∨ (first ≤ o ∧ o < first + n) := by
  intro n
  induction n with
  | zero =>
    intro _
    exact h.congr fun o => ⟨fun ho => ho.resolve_right (by omega), .inl⟩
  | succ n ih =>
    intro hn
    refine ((ih (by omega)).write hsized hsep (show first + n < _ by omega)).congr fun o => ?_
    constructor
    · rintro (ho | ho)
      · exact .inl (.inl ho)
      · by_cases hlast : o = first + n
        · exact .inr hlast
        · exact .inl (.inr (by omega))
    · rintro ((ho | ho) | rfl)
      · exact .inl ho
      · exact .inr (by omega)
      · exact .inr (by omega)

end Job.Wrote

/-- **A shard is its writes**: `run_shard` leaves what its channels leave, written one after the other. -/
theorem runShard_eq_writes (h : job.Sized) (hsep : job.Separate) {shard : Nat} (hshard : shard < totalThreads.toNat)
    (memory : Memory α) :
    runShard totalThreads job (UInt64.ofNat shard) memory =
      .ok (foldN (shardCount totalThreads job shard) memory
        fun c memory => job.write (shardFirst totalThreads job shard + c) memory) := by
  have hend : shardFirst totalThreads job shard + shardCount totalThreads job shard ≤ _ := shard_end_le hshard
  have hwrites := (Job.Wrote.refl job memory).writes h hsep hend
  rw [runShard_ok h hshard]
  exact congrArg _ ((Job.Wrote.block memory hend).unique (hwrites.congr fun o => ⟨.inr, fun ho => ho.resolve_left id⟩))

/-- **Sharding changes nothing**: on one thread a call leaves what the scalar kernel leaves. -/
theorem Job.call_eq_scalar (h : job.Sized) (hsep : job.Separate) (hpos : 0 < totalThreads.toNat) (memory : Memory α) :
    job.call totalThreads memory = job.scalar memory := by
  by_cases hpar : Parallel totalThreads job
  · -- after some shards the channels before the next one's first are written
    have hstep : ∀ shard memory', shard < totalThreads.toNat →
        (job.Wrote memory memory' fun o => o < Partition.start totalThreads.toNat job.outputChannels.toNat shard) →
        ∃ memory'', runShard totalThreads job (UInt64.ofNat shard) memory' = .ok memory'' ∧
          job.Wrote memory memory'' fun o => o < Partition.start totalThreads.toNat job.outputChannels.toNat (shard + 1) := by
      intro shard memory' hshard hwrote
      obtain ⟨hfirst, hcount⟩ : shardFirst totalThreads job shard = _ ∧ shardCount totalThreads job shard = _ :=
        shardRange_eq job.outputChannels hshard
      refine ⟨_, runShard_eq_writes h hsep hshard memory', ?_⟩
      refine (hwrote.writes h hsep (shard_end_le hshard)).congr fun o => ?_
      rw [Partition.start_succ, ← hfirst, ← hcount]
      omega
    have hzero : job.Wrote memory memory fun o => o < Partition.start totalThreads.toNat job.outputChannels.toNat 0 := by
      refine (Job.Wrote.refl job memory).congr fun o => ⟨fun ho => ?_, False.elim⟩
      rw [Partition.start_zero] at ho
      exact Nat.not_lt_zero o ho
    obtain ⟨memory', hok, hwrote⟩ := forN_spec hzero hstep
    rw [Job.call, if_pos hpar, hok]
    refine (hwrote.complete h fun o ho => ?_).symm
    rwa [Partition.start_self hpos]
  · rw [Job.call, if_neg hpar]

end Gpt2Runtime.LinearExecutor
