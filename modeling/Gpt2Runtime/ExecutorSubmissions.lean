import Gpt2Runtime.ExecutorRealization
/-
# Submissions, whole and in order

The two results about what the callers of `LinearExecutor::linear` see, over every run of any number of
submitters: the submissions are linearized in the order they take `submit_mutex_`, and each one gets its own
exceptions and leaves nothing behind.
-/

namespace Gpt2Runtime.LinearExecutor

open Loop Flat Word Kernels Lts

variable {α : Type}

/-! ## What a whole parallel submission shows -/

section

variable {totalThreads : UInt64} {throws : Throws} {i shard : Nat} {job : Job} {shards : Nat → Shard} {work : List Event}
  {e : Exc}

/-- A shard's event is one of those its progress lists. -/
theorem Work.mem_iff (h : Work totalThreads throws i job shards work) {event : Event} (he : event.shard? = some shard) :
    event ∈ work ↔ event ∈ (shards shard).events (runner i shard) shard job := by
  rw [← h.events shard, List.mem_filter, decide_eq_true_iff]
  exact ⟨fun hm => ⟨hm, he⟩, fun hm => hm.1⟩

/-- A shard that is through has shown how it ended. -/
theorem Work.finish_iff (h : Work totalThreads throws i job shards work)
    (hall : ∀ shard, shard < totalThreads.toNat → (shards shard).Final shard) :
    Event.finish shard (some e) ∈ work ↔ (shards shard).error = some e := by
  rw [h.mem_iff rfl]
  cases hs : shards shard with
  | pending => simp [Shard.events, Shard.error]
  | running c =>
    by_cases hlt : shard < totalThreads.toNat
    · have hfinal := hall shard hlt
      rw [hs] at hfinal
      exact hfinal.elim
    · have hpending := h.outside shard (by omega)
      rw [hs] at hpending
      cases hpending
  | ended c error => simp [Shard.events, Shard.error, List.mem_replicate, eq_comm]
  | recorded c error => simp [Shard.events, Shard.error, List.mem_replicate, eq_comm]

/-- A worker that is through has recorded how it ended. -/
theorem Work.record_iff (h : Work totalThreads throws i job shards work)
    (hall : ∀ shard, shard < totalThreads.toNat → (shards shard).Final shard) {error : Option Exc} :
    Event.record shard error ∈ work ↔ 0 < shard ∧ shard < totalThreads.toNat ∧ (shards shard).error = error := by
  rw [h.mem_iff rfl]
  by_cases hlt : shard < totalThreads.toNat
  · have hfinal := hall shard hlt
    cases hs : shards shard with
    | pending => rw [hs] at hfinal; exact hfinal.elim
    | running c => rw [hs] at hfinal; exact hfinal.elim
    | ended c error' =>
      rw [hs] at hfinal
      have hzero : shard = 0 := hfinal
      simp [Shard.events, List.mem_replicate, hzero]
    | recorded c error' =>
      rw [hs] at hfinal
      have hpos : 0 < shard := Nat.pos_of_ne_zero hfinal
      simp [Shard.events, Shard.error, List.mem_replicate, hpos, hlt, eq_comm]
  · rw [h.outside shard (by omega)]
    simp [Shard.events, hlt]

theorem outcome_error_iff {callerError workerError : Option Exc} :
    (∃ e, outcome callerError workerError = .error e) ↔ callerError ≠ none ∨ workerError ≠ none := by
  cases callerError with
  | some e => simp [outcome]
  | none =>
    cases workerError with
    | some e => simp [outcome]
    | none => simp [outcome]

/-- The first worker exception is one some worker recorded, and there is one if any did. -/
theorem firstRecorded_ne_none (h : Work totalThreads throws i job shards work)
    (hall : ∀ shard, shard < totalThreads.toNat → (shards shard).Final shard) :
    work.findSome? Event.recorded? ≠ none ↔ ∃ shard e, 0 < shard ∧ shard < totalThreads.toNat ∧ (shards shard).error = some e := by
  rw [ne_eq, List.findSome?_eq_none_iff, not_forall]
  constructor
  · rintro ⟨event, hevent⟩
    rw [not_forall] at hevent
    obtain ⟨hmem, hrecorded⟩ := hevent
    cases event with
    | record shard error =>
      cases error with
      | none => exact absurd rfl hrecorded
      | some e => exact ⟨shard, e, (h.record_iff hall).1 hmem⟩
    | _ => exact absurd rfl hrecorded
  · rintro ⟨shard, e, hrange⟩
    exact ⟨.record shard (some e), fun hnone => nomatch hnone ((h.record_iff hall).2 hrange)⟩

/-- **Errors of one submission**: its result says which of its own shards threw, and it returns after all
its workers have recorded. -/
theorem Submission.Rounds.errors {b : Submission} (h : b.Rounds totalThreads throws) :
    ((∃ e, b.result = .error e) ↔ ∃ shard e, Event.finish shard (some e) ∈ b.body) ∧
    (∀ e, Event.finish 0 (some e) ∈ b.body → b.result = .error e) ∧
    ((∀ e, Event.finish 0 (some e) ∉ b.body) → b.result = outcome none (b.body.findSome? Event.recorded?)) ∧
    ∀ w, 0 < w → w < totalThreads.toNat → ∃ error, Event.record w error ∈ b.body := by
  obtain ⟨shards, work, hbody, hwork, hall, hresult⟩ := h
  have hfinish : ∀ {shard : Nat} {e : Exc}, Event.finish shard (some e) ∈ b.body ↔ (shards shard).error = some e := by
    intro shard e
    rw [hbody, List.mem_cons, hwork.finish_iff hall]
    exact ⟨fun h' => h'.resolve_left (by simp), .inr⟩
  refine ⟨?_, fun e he => ?_, fun hnone => ?_, fun w hw hlt => ?_⟩
  · rw [hresult, outcome_error_iff, firstRecorded_ne_none hwork hall]
    constructor
    · rintro (hcaller | ⟨shard, e, -, -, he⟩)
      · obtain ⟨e, he⟩ := Option.ne_none_iff_exists'.1 hcaller
        exact ⟨0, e, hfinish.2 he⟩
      · exact ⟨shard, e, hfinish.2 he⟩
    · rintro ⟨shard, e, he⟩
      rw [hfinish] at he
      by_cases hzero : shard = 0
      · subst hzero
        exact .inl (by rw [he]; exact Option.some_ne_none e)
      · refine .inr ⟨shard, e, Nat.pos_of_ne_zero hzero, ?_, he⟩
        by_contra hge
        rw [hwork.outside shard (by omega)] at he
        cases he
  · rw [hresult, hfinish.1 he]
    rfl
  · have hcaller : (shards 0).error = none := by
      cases he : (shards 0).error with
      | none => rfl
      | some e => exact absurd (hfinish.2 he) (hnone e)
    rw [hresult, hcaller, hbody, List.findSome?_cons]
    rfl
  · refine ⟨(shards w).error, ?_⟩
    rw [hbody]
    exact List.mem_cons_of_mem _ ((hwork.record_iff hall).2 ⟨hw, hlt, rfl⟩)

end

/-! ## A submission on two threads -/

/-- Two channels of 65536 floats each: the smallest job two threads share. -/
def wideJob : Job := ⟨⟨0, 2⟩, ⟨2, 65536⟩, ⟨65538, 131072⟩, .empty, 65536, 2⟩

/-- The worker is first to write and last to end, with `error` if it throws. -/
def wideEvents (error : Option Exc) : List Event :=
  [.acquire 0 wideJob, .publish 0, .begin (.submitter 0) 0 wideJob, .begin (.worker 1) 1 wideJob, .write 1, .write 0,
    .finish 0 none, .finish 1 error, .record 1 error, .return 0 (outcome none error)]

theorem wideJob_separate : wideJob.Separate := by
  rintro address ⟨-, hhi⟩
  have hlt : address < 2 := hhi
  refine ⟨fun h => ?_, fun h => ?_, fun h => ?_⟩
  · have hge : 2 ≤ address := h.1
    omega
  · have hge : 65538 ≤ address := h.1
    omega
  · have hempty : address < 0 := h.2
    omega

theorem wide_run (throws : Throws) (error : Option Exc) (herr : ∀ e, error = some e → throws wideJob 1 e) :
    ∃ s : State Int, Run (system 2 throws) (init fun _ => 0) (wideEvents error) s ∧ ∀ i, s.submitters i = .outside := by
  have hserial : ∃ m : Memory Int, Run (serial 2 throws) ⟨fun _ => 0, .idle⟩ (wideEvents error) ⟨m, .idle⟩ := by
    apply Exists.intro
    refine .cons ⟨_, rfl, .acquire rfl⟩ ?_
    refine .cons ⟨_, rfl, .publish (by decide)⟩ ?_
    refine .cons ⟨_, rfl, .begin (by decide : 0 < (2 : UInt64).toNat) rfl⟩ ?_
    refine .cons ⟨_, rfl, .begin (by decide : 1 < (2 : UInt64).toNat) rfl⟩ ?_
    refine .cons ⟨_, rfl, .write (by decide) rfl (by decide)⟩ ?_
    refine .cons ⟨_, rfl, .write (by decide) rfl (by decide)⟩ ?_
    refine .cons ⟨_, rfl, .finish (by decide) rfl (fun _ => rfl) (by simp)⟩ ?_
    refine .cons ⟨_, rfl, .finish (by decide) rfl (fun _ => rfl) herr⟩ ?_
    refine .cons ⟨_, rfl, .record (by decide) (by decide) rfl⟩ ?_
    refine .cons ⟨_, rfl, ?_⟩ .refl
    refine .return fun shard hshard => ?_
    match shard, hshard with
    | 0, _ => rfl
    | 1, _ => exact Nat.one_ne_zero
  obtain ⟨m, hserial⟩ := hserial
  obtain ⟨s, hrun, hmatch⟩ := serial_realizable (by decide) hserial
  exact ⟨s, hrun, hmatch.callers⟩

/-! ## Linearization -/

section

variable [Scalar α] {totalThreads : UInt64} {throws : Throws} {s : State α} {memory memory' : Memory α} {t : List Event}

variable (totalThreads throws) in
/-- Executing calls one at a time: each shows its events on an executor of its own, from the memory the
call before it left. -/
inductive OneAtATime : Memory α → List Submission → Memory α → Prop
  | nil {memory : Memory α} : OneAtATime memory [] memory
  | cons {memory memory' : Memory α} {b : Submission} {blocks : List Submission} {s : State α}
      (hrun : Run (system totalThreads throws) (init memory) b.events s) (hout : ∀ i, s.submitters i = .outside)
      (hrest : OneAtATime s.memory blocks memory') : OneAtATime memory (b :: blocks) memory'

/-- The serial machine is idle again after the events of a submission. -/
theorem Submission.serial_idle {b : Submission} {a a' : Serial α}
    (h : Run (serial totalThreads throws) a b.events a') : a'.phase = .idle := by
  rw [Submission.events] at h
  obtain ⟨a'', -, hlast⟩ := h.split
  have hstep := serialStep_of_run hlast rfl
  generalize hevent : Event.return b.submitter b.result = e at hstep
  cases hstep with
  | scalarReturn => rfl
  | «return» => rfl
  | _ => cases hevent

theorem oneAtATime (hpos : 0 < totalThreads.toNat) {blocks : List Submission}
    (h : Run (serial totalThreads throws) ⟨memory, .idle⟩ (blocks.flatMap Submission.events) ⟨memory', .idle⟩) :
    OneAtATime totalThreads throws memory blocks memory' := by
  induction blocks generalizing memory with
  | nil =>
    cases h.eq_of_nil (fun _ _ => serial_silent) rfl
    exact .nil
  | cons b blocks ih =>
    rw [List.flatMap_cons] at h
    obtain ⟨⟨m, phase⟩, hfirst, hrest⟩ := h.split
    obtain rfl : phase = .idle := Submission.serial_idle hfirst
    obtain ⟨s, hrun, hmatch⟩ := serial_realizable hpos hfirst
    have hmemory : s.memory = m := hmatch.tracks.memory
    rw [← hmemory] at hrest
    exact .cons hrun hmatch.callers (ih hrest)

/-- **Submissions are linearizable.** In every run the events are whole submissions in the order they took
`submit_mutex_` and at most one more in progress; `completed_` never exceeds the number of workers; and
once all calls have returned the memory is one that executing them one at a time in that order leaves,
whatever their buffers share. Where no call's output is among its own inputs there is only one such memory,
that of the calls on one thread. -/
theorem submissions_linearizable (hpos : 0 < totalThreads.toNat)
    (h : Run (system totalThreads (shardThrows α totalThreads)) (init memory) t s) :
    s.completed.toNat ≤ s.started ∧
    ∃ (blocks : List Submission) (current : List Event), t = blocks.flatMap Submission.events ++ current ∧
      (∀ b ∈ blocks, b.Complete totalThreads (shardThrows α totalThreads)) ∧
      (current = [] ∨ InProgress totalThreads (shardThrows α totalThreads) current) ∧
      ((∀ i, s.submitters i = .outside) → current = [] ∧
        OneAtATime totalThreads (shardThrows α totalThreads) memory blocks s.memory ∧
        ((∀ b ∈ blocks, b.job.Separate) → replay totalThreads blocks memory = .ok s.memory)) := by
  obtain ⟨a, hserial, htracks⟩ := executor_refines_serial hpos h
  obtain ⟨blocks, current, hevents, hcomplete, base, hcurrent, hreplay⟩ := serial_history hpos hserial
  refine ⟨htracks.completed_le, blocks, current, hevents, hcomplete, hcurrent.inProgress, fun hout => ?_⟩
  have hidle : ∀ i, a.phase.holder ≠ some i := by
    intro i
    have hi := htracks.submitters i
    rw [hout i] at hi
    exact hi
  have hbase := hreplay (noThrow_shardThrows totalThreads)
  have hmemory := htracks.memory
  cases hcurrent with
  | idle =>
    rw [hevents, List.append_nil] at hserial
    rw [hmemory]
    exact ⟨rfl, oneAtATime hpos hserial, hbase⟩
  | admitted => exact absurd rfl (hidle _)
  | round => exact absurd rfl (hidle _)

theorem submissions_linearizable_wide : ∃ (s : State Int) (blocks : List Submission), s.completed.toNat ≤ s.started ∧
    wideEvents none = blocks.flatMap Submission.events ∧
    OneAtATime 2 (shardThrows Int 2) (fun _ => (0 : Int)) blocks s.memory ∧
    replay 2 blocks (fun _ => (0 : Int)) = .ok s.memory := by
  obtain ⟨s, hrun, hout⟩ := wide_run _ none fun _ h => nomatch h
  obtain ⟨hle, blocks, current, hevents, -, -, hreturned⟩ := submissions_linearizable (by decide) hrun
  obtain ⟨rfl, hserially, hreplay⟩ := hreturned hout
  rw [List.append_nil] at hevents
  refine ⟨s, blocks, hle, hevents, hserially, hreplay fun b hb => ?_⟩
  have hmem : Event.acquire b.submitter b.job ∈ wideEvents none := by
    rw [hevents]
    exact List.mem_flatMap.2 ⟨b, hb, List.mem_cons_self⟩
  simp only [wideEvents, List.mem_cons, Event.acquire.injEq, reduceCtorEq, List.not_mem_nil, or_false] at hmem
  rw [hmem.2]
  exact wideJob_separate

/-- **Errors are attributed to their submission**, whatever the shards throw. A parallel call exits by an
exception exactly if one of its own shards threw, with the submitter's own or else the first one a worker
recorded for it, after every worker has recorded; and from any state in which no submission is in progress
the executor goes on as a new one would. -/
theorem errors_attributed (hpos : 0 < totalThreads.toNat) (h : Run (system totalThreads throws) (init memory) t s) :
    (∃ (blocks : List Submission) (current : List Event), t = blocks.flatMap Submission.events ++ current ∧
      (current = [] ∨ InProgress totalThreads throws current) ∧
      ∀ b ∈ blocks, b.Complete totalThreads throws ∧ (Parallel totalThreads b.job →
        ((∃ e, b.result = .error e) ↔ ∃ shard e, Event.finish shard (some e) ∈ b.body) ∧
        (∀ e, Event.finish 0 (some e) ∈ b.body → b.result = .error e) ∧
        ((∀ e, Event.finish 0 (some e) ∉ b.body) → b.result = outcome none (b.body.findSome? Event.recorded?)) ∧
        ∀ w, 0 < w → w < totalThreads.toNat → ∃ error, Event.record w error ∈ b.body)) ∧
    ∀ t' s', s.submitMutex = none → Run (system totalThreads throws) s t' s' →
      ∃ s'', Run (system totalThreads throws) (init s.memory) t' s'' ∧ s''.memory = s'.memory := by
  obtain ⟨a, hserial, htracks⟩ := executor_refines_serial hpos h
  obtain ⟨blocks, current, hevents, hcomplete, base, hcurrent, -⟩ := serial_history hpos hserial
  refine ⟨⟨blocks, current, hevents, hcurrent.inProgress, fun b hb => ⟨hcomplete b hb, fun hpar => ?_⟩⟩, ?_⟩
  · have hb' := hcomplete b hb
    rw [Submission.Complete, if_pos hpar] at hb'
    exact hb'.errors
  · intro t' s' hfree hrun
    -- the serial machine is idle, so the rest of the run is one from its start
    obtain ⟨m, phase⟩ := a
    obtain rfl : phase = .idle := by
      have hholder := htracks.submitMutex
      rw [hfree] at hholder
      cases phase with
      | idle => rfl
      | admitted i job c => cases hholder
      | round r => cases hholder
    have hmemory : s.memory = m := htracks.memory
    obtain ⟨a', hserial', htracks'⟩ := hrun.simulate (fun _ _ _ _ hR hl => Tracks.step hR hl) htracks
    obtain ⟨s'', hrun', hmatch⟩ := serial_realizable hpos hserial'
    rw [hmemory]
    exact ⟨s'', hrun', hmatch.tracks.memory.trans htracks'.memory.symm⟩

theorem errors_attributed_wide : ∃ (blocks : List Submission) (current : List Event),
    wideEvents (some .undefined) = blocks.flatMap Submission.events ++ current ∧
    ∀ b ∈ blocks, Parallel 2 b.job → ((∃ e, b.result = .error e) ↔ ∃ shard e, Event.finish shard (some e) ∈ b.body) := by
  obtain ⟨s, hrun, -⟩ := wide_run (fun _ shard _ => shard = 1) (some .undefined) fun _ _ => rfl
  obtain ⟨⟨blocks, current, hevents, -, hblocks⟩, -⟩ := errors_attributed (by decide) hrun
  exact ⟨blocks, current, hevents, fun b hb hpar => ((hblocks b hb).2 hpar).1⟩

end

end Gpt2Runtime.LinearExecutor
