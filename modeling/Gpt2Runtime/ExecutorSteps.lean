import Gpt2Runtime.ExecutorRefinement
/-
# Every step of the executor is one of the serial machine, or none

One lemma for each kind of event (`Tracks.workerEvent`, `Tracks.callerEvent`), then the three threads'
steps by cases. The runs follow: `executor_refines_serial`.
-/

namespace Gpt2Runtime.LinearExecutor

open Loop Flat Word Kernels Lts

variable {α : Type}

namespace Tracks

variable {totalThreads : UInt64} {s : State α} {m : Memory α} {r : Round}

/-! ## Events of a round -/

theorem started_of_round (h : Tracks totalThreads s ⟨m, .round r⟩) : s.started + 1 = totalThreads.toNat :=
  (h.ready (h.mainReady fun h' => nomatch h')).1

theorem not_stopping (h : Tracks totalThreads s ⟨m, .round r⟩) : s.stopping = false :=
  (h.ready (h.mainReady fun h' => nomatch h')).2

/-- During a round the worker of a started thread has a shard of its own. -/
theorem worker_lt (h : Tracks totalThreads s ⟨m, .round r⟩) {w : Nat} (hold : (s.workers w).pc ≠ .unstarted) :
    0 < w ∧ w ≤ s.started ∧ w < totalThreads.toNat := by
  obtain ⟨hw, hle⟩ := h.worker_range hold
  have hstarted := h.started_of_round
  exact ⟨hw, hle, by omega⟩

/-- **A worker's event**: its shard moves on, and with it the count and the error it records. -/
theorem workerEvent (h : Tracks totalThreads s ⟨m, .round r⟩) {w : Nat} {pc : WorkerPc} {o : UInt64}
    {mutex : Option Thread} {memory : Memory α} {progress : Shard} {error workerError : Option Exc} {completed : UInt64}
    (hold : (s.workers w).pc ≠ .unstarted) (hpc : pc ≠ .unstarted) (hnot : ¬(r.shards w).Final w)
    (hok : WorkerOk (.round { r.set w progress with error }) s.generation s.stopping w ⟨pc, o⟩)
    (hmutex : Owned (s.setWorker w pc o).inside mutex) (hpending : progress ≠ .pending)
    (hcount : completed.toNat = ({ r.set w progress with error } : Round).recordedCount s.started)
    (herror : workerError = error) :
    Tracks totalThreads { s.setWorker w pc o with stateMutex := mutex, memory, completed, workerError }
      ⟨memory, .round { r.set w progress with error }⟩ := by
  obtain ⟨hw, -, hlt⟩ := h.worker_lt hold
  refine { h with
    memory := rfl, stateMutex := hmutex, submitters := fun i => ?_, workers := fun w' => ?_, unstarted := fun w' => ?_,
    completed_le := ?_, round := ?_, job := ?_ }
  · exact (h.submitters i).shard hw hlt hnot
  · by_cases heq : w' = w
    · subst heq
      rw [State.setWorker_self]
      exact hok
    · simp only [State.setWorker_of_ne heq]
      exact (h.workers w').shard heq
  · by_cases heq : w' = w
    · subst heq
      simp only [State.setWorker_self]
      exact ⟨fun h' => absurd h' hpc, fun h' => absurd ((h.unstarted w').2 h') hold⟩
    · simp only [State.setWorker_of_ne heq]
      exact h.unstarted w'
  · show completed.toNat ≤ s.started
    rw [hcount]
    exact Round.recordedCount_le _ _
  · rintro r' ⟨⟩
    exact ⟨hcount, herror⟩
  · rintro r' w' ⟨⟩ hlt hs
    by_cases heq : w' = w
    · subst heq
      exact absurd ((Round.set_self r w' progress).symm.trans hs) hpending
    · exact h.job r w' rfl hlt ((Round.set_of_ne heq).symm.trans hs)

/-- A worker's event that records nothing. -/
theorem workerShard (h : Tracks totalThreads s ⟨m, .round r⟩) {w : Nat} {pc : WorkerPc} {o : UInt64}
    {mutex : Option Thread} {memory : Memory α} {progress : Shard}
    (hold : (s.workers w).pc ≠ .unstarted) (hpc : pc ≠ .unstarted) (hnot : ¬(r.shards w).Final w)
    (hok : WorkerOk (.round (r.set w progress)) s.generation s.stopping w ⟨pc, o⟩)
    (hmutex : Owned (s.setWorker w pc o).inside mutex) (hpending : progress ≠ .pending)
    (hrecorded : progress.isRecorded = (r.shards w).isRecorded) :
    Tracks totalThreads { s.setWorker w pc o with stateMutex := mutex, memory } ⟨memory, .round (r.set w progress)⟩ := by
  obtain ⟨hcount, herror⟩ := h.round r rfl
  exact h.workerEvent hold hpc hnot hok hmutex hpending (hcount.trans (Round.recordedCount_set hrecorded).symm) herror

/-- **The submitter's event**: shard 0 moves on. -/
theorem callerEvent (h : Tracks totalThreads s ⟨m, .round r⟩) {pc : Submitter} {memory : Memory α} {progress : Shard}
    (hok : SubmitterOk totalThreads (.round (r.set 0 progress)) r.submitter pc)
    (hmutex : Owned (s.setSubmitter r.submitter pc).inside s.stateMutex) (hpending : progress ≠ .pending)
    (hrecorded : progress.isRecorded = (r.shards 0).isRecorded) :
    Tracks totalThreads { s.setSubmitter r.submitter pc with memory } ⟨memory, .round (r.set 0 progress)⟩ := by
  have hready : s.main = .ready := h.mainReady fun h' => nomatch h'
  obtain ⟨hcount, herror⟩ := h.round r rfl
  refine { h with
    memory := rfl, stateMutex := hmutex
    submitters := h.holder_moves hok (fun _ => Phase.holder_of_ne rfl) (fun _ => Phase.holder_of_ne rfl)
    workers := fun w => ?_, calls := fun _ _ => hready, round := ?_, job := ?_ }
  · by_cases hw : w = 0
    · exact .of_unstarted ((h.unstarted w).2 (by omega))
    · exact (h.workers w).shard hw
  · rintro r' ⟨⟩
    exact ⟨hcount.trans (Round.recordedCount_set hrecorded).symm, herror⟩
  · rintro r' w ⟨⟩ hlt hs
    by_cases heq : w = 0
    · subst heq
      exact absurd ((Round.set_self r 0 progress).symm.trans hs) hpending
    · exact h.job r w rfl hlt ((Round.set_of_ne heq).symm.trans hs)

end Tracks

/-! ## Steps -/

section

variable [Scalar α] {totalThreads : UInt64} {throws : Throws} {s s' : State α} {a : Serial α} {l : Option Event}

theorem runner_worker {i w : Nat} (hw : 0 < w) : runner i w = .worker w := if_neg (Nat.ne_of_gt hw)

omit [Scalar α] in
/-- The round of a worker that is running or ending its shard. -/
theorem Tracks.round_of_running (h : Tracks totalThreads s a) {w : Nat} {job : Job} {c : Nat} {o : UInt64}
    (hpc : s.workers w = ⟨.running job c, o⟩) :
    ∃ m r, a = ⟨m, .round r⟩ ∧ o = s.generation ∧ r.job = job ∧ r.shards w = .running c := by
  have hok := h.workers w
  rw [hpc] at hok
  obtain ⟨ho, r, hphase, hjob, hshard⟩ := hok
  obtain ⟨m, phase⟩ := a
  exact ⟨m, r, congrArg _ hphase, ho, hjob, hshard⟩

omit [Scalar α] in
theorem Tracks.round_of_ended (h : Tracks totalThreads s a) {w : Nat} {error : Option Exc} {o : UInt64}
    (hpc : s.workers w = ⟨.finishing error, o⟩ ∨ s.workers w = ⟨.recording error, o⟩) :
    ∃ m r c, a = ⟨m, .round r⟩ ∧ o = s.generation ∧ r.shards w = .ended c error := by
  have hok := h.workers w
  obtain ⟨m, phase⟩ := a
  rcases hpc with hpc | hpc
  · rw [hpc] at hok
    obtain ⟨ho, r, hphase, c, hshard⟩ := hok
    exact ⟨m, r, c, congrArg _ hphase, ho, hshard⟩
  · rw [hpc] at hok
    obtain ⟨ho, r, hphase, c, hshard⟩ := hok
    exact ⟨m, r, c, congrArg _ hphase, ho, hshard⟩

/-- **A worker's step.** -/
theorem Tracks.worker_step (h : Tracks totalThreads s a) {w : Nat} (hs : WorkerStep totalThreads throws w s l s') :
    ∃ a', Run (serial totalThreads throws) a l.toList a' ∧ Tracks totalThreads s' a' := by
  have hok := h.workers w
  cases hs with
  | @lock o hpc hfree =>
    rw [hpc] at hok
    exact ⟨a, .refl, h.moveWorker (by rw [hpc]; simp) (by simp) hok (owned_setWorker_acquire h.stateMutex hfree trivial)⟩
  | @wait o hpc hpred =>
    rw [hpc] at hok
    exact ⟨a, .refl, h.moveWorker (by rw [hpc]; simp) (by simp) hok
      (owned_setWorker_release h.stateMutex (by rw [hpc]; trivial) id)⟩
  | @exit o hpc hstop =>
    exact ⟨a, .refl, h.moveWorker (by rw [hpc]; simp) (by simp) hstop
      (owned_setWorker_release h.stateMutex (by rw [hpc]; trivial) id)⟩
  | @take o hpc hstop hgen =>
    rw [hpc] at hok
    obtain ⟨r, hphase, hpending, ho⟩ | ⟨ho, -⟩ := hok
    · obtain ⟨m, phase⟩ := a
      cases hphase
      obtain ⟨hw, -, hlt⟩ := h.worker_lt (w := w) (by rw [hpc]; simp)
      have hjob := h.job r w rfl hlt hpending
      have hstep : SerialStep totalThreads throws ⟨m, .round r⟩ (.begin (.worker w) w s.job)
          ⟨m, .round (r.set w (.running 0))⟩ := by
        rw [← runner_worker (i := r.submitter) hw, hjob]
        exact .begin hlt hpending
      have hmemory : s.memory = m := h.memory
      refine ⟨_, .single ⟨_, rfl, hstep⟩, ?_⟩
      rw [← hmemory] at h ⊢
      refine h.workerShard (by rw [hpc]; simp) (by simp) (by rw [hpending]; exact id) ?_
        (owned_setWorker_release h.stateMutex (by rw [hpc]; trivial) id) (by simp) (by rw [hpending]; rfl)
      exact ⟨rfl, _, rfl, hjob.symm, Round.set_self _ _ _⟩
    · exact absurd ho.symm hgen
  | @write o job c hpc hc =>
    obtain ⟨m, r, rfl, rfl, rfl, hshard⟩ := h.round_of_running hpc
    obtain ⟨-, -, hlt⟩ := h.worker_lt (w := w) (by rw [hpc]; simp)
    have hmemory : s.memory = m := h.memory
    refine ⟨_, .single ⟨_, rfl, .write hlt hshard hc⟩, ?_⟩
    rw [← hmemory] at h ⊢
    refine h.workerShard (by rw [hpc]; simp) (by simp) (by rw [hshard]; exact id) ?_
      (owned_setWorker_keep h.stateMutex (by rw [hpc]; exact Iff.rfl)) (by simp) (by rw [hshard]; rfl)
    exact ⟨rfl, _, rfl, rfl, Round.set_self _ _ _⟩
  | @finish o job c hpc hc =>
    obtain ⟨m, r, rfl, rfl, rfl, hshard⟩ := h.round_of_running hpc
    obtain ⟨-, -, hlt⟩ := h.worker_lt (w := w) (by rw [hpc]; simp)
    have hmemory : s.memory = m := h.memory
    refine ⟨_, .single ⟨_, rfl, .finish hlt hshard (fun _ => hc) (by simp)⟩, ?_⟩
    rw [← hmemory] at h ⊢
    refine h.workerShard (by rw [hpc]; simp) (by simp) (by rw [hshard]; exact id) ?_
      (owned_setWorker_keep h.stateMutex (by rw [hpc]; exact Iff.rfl)) (by simp) (by rw [hshard]; rfl)
    exact ⟨rfl, _, rfl, c, Round.set_self _ _ _⟩
  | @throw o job c e hpc he =>
    obtain ⟨m, r, rfl, rfl, rfl, hshard⟩ := h.round_of_running hpc
    obtain ⟨-, -, hlt⟩ := h.worker_lt (w := w) (by rw [hpc]; simp)
    have hmemory : s.memory = m := h.memory
    have hstep : SerialStep totalThreads throws ⟨m, .round r⟩ (.finish w (some e)) ⟨m, .round (r.set w (.ended c (some e)))⟩ :=
      .finish hlt hshard (by simp) (by rintro _ ⟨⟩; exact he)
    refine ⟨_, .single ⟨_, rfl, hstep⟩, ?_⟩
    rw [← hmemory] at h ⊢
    refine h.workerShard (by rw [hpc]; simp) (by simp) (by rw [hshard]; exact id) ?_
      (owned_setWorker_keep h.stateMutex (by rw [hpc]; exact Iff.rfl)) (by simp) (by rw [hshard]; rfl)
    exact ⟨rfl, _, rfl, c, Round.set_self _ _ _⟩
  | @lockDone o error hpc hfree =>
    rw [hpc] at hok
    exact ⟨a, .refl, h.moveWorker (by rw [hpc]; simp) (by simp) hok (owned_setWorker_acquire h.stateMutex hfree trivial)⟩
  | @record o error hpc =>
    obtain ⟨m, r, c, rfl, rfl, hshard⟩ := h.round_of_ended (.inr hpc)
    obtain ⟨hw, hle, hlt⟩ := h.worker_lt (w := w) (by rw [hpc]; simp)
    have hmemory : s.memory = m := h.memory
    obtain ⟨hcount, herror⟩ := h.round r rfl
    refine ⟨_, .single ⟨_, rfl, .record hlt (Nat.ne_of_gt hw) hshard⟩, ?_⟩
    have hsucc : ({ r.set w (.recorded c error) with error := r.error.or error } : Round).recordedCount s.started =
        r.recordedCount s.started + 1 := Round.recordedCount_succ hw hle (by rw [hshard]; rfl) rfl
    have hbound := Round.recordedCount_le { r.set w (.recorded c error) with error := r.error.or error } s.started
    rw [hsucc] at hbound
    have hT := toNat_lt totalThreads
    have hstarted := h.started_lt
    have hcompleted : (s.completed + 1).toNat = r.recordedCount s.started + 1 := toNat_add_eq hcount rfl (by omega)
    rw [← hmemory] at h ⊢
    refine h.workerEvent (by rw [hpc]; simp) (by simp) (by rw [hshard]; exact Nat.ne_of_gt hw) ?_
      (owned_setWorker_release h.stateMutex (by rw [hpc]; trivial) id) (by simp) (hcompleted.trans hsucc.symm)
      (by rw [herror])
    refine .inr ⟨rfl, ?_⟩
    rintro r' ⟨⟩
    rw [Round.record_shards, Function.update_self]
    exact Nat.ne_of_gt hw
  | @notifyOne o i hpc hi =>
    rw [hpc] at hok
    have hmove : Tracks totalThreads (s.setWorker w .entering o) a := h.moveWorker (by rw [hpc]; simp) (by simp) hok
      (owned_setWorker_keep h.stateMutex (by rw [hpc]; exact Iff.rfl))
    exact ⟨a, .refl, hmove.notifyDone hi⟩
  | @notifyNone o hpc hi =>
    rw [hpc] at hok
    exact ⟨a, .refl, h.moveWorker (by rw [hpc]; simp) (by simp) hok
      (owned_setWorker_keep h.stateMutex (by rw [hpc]; exact Iff.rfl))⟩

omit [Scalar α] in
/-- The round of a submitter that runs shard 0. -/
theorem Tracks.round_of_caller (h : Tracks totalThreads s a) {i : Nat} {job : Job} {c : Nat}
    (hpc : s.submitters i = .running job c) :
    ∃ m r, a = ⟨m, .round r⟩ ∧ r.submitter = i ∧ r.job = job ∧ r.shards 0 = .running c := by
  have hok := h.submitters i
  rw [hpc] at hok
  obtain ⟨r, hphase, hi, hjob, hshard⟩ := hok
  obtain ⟨m, phase⟩ := a
  exact ⟨m, r, congrArg _ hphase, hi, hjob, hshard⟩

omit [Scalar α] in
theorem Tracks.pos (h : Tracks totalThreads s a) : 0 < totalThreads.toNat := by
  have := h.started_lt
  omega

/-- **A submitter's step.** -/
theorem Tracks.submitter_step (h : Tracks totalThreads s a) {i : Nat} (hs : SubmitterStep totalThreads throws i s l s') :
    ∃ a', Run (serial totalThreads throws) a l.toList a' ∧ Tracks totalThreads s' a' := by
  have hok := h.submitters i
  obtain ⟨m, phase⟩ := a
  have hmemory : s.memory = m := h.memory
  have hsubmit : s.submitMutex = phase.holder := h.submitMutex
  cases hs with
  | @acquire job hpc hfree =>
    have hready := h.calls i (by rw [hpc]; simp)
    rw [hpc] at hok
    obtain ⟨-, hcheck⟩ := hok
    cases phase with
    | admitted j job' c => rw [hfree] at hsubmit; cases hsubmit
    | round r => rw [hfree] at hsubmit; cases hsubmit
    | idle =>
      refine ⟨_, .single ⟨_, rfl, .acquire hcheck⟩, ?_⟩
      refine { h with
        submitMutex := rfl, stateMutex := owned_setSubmitter_keep h.stateMutex (by rw [hpc]; exact Iff.rfl)
        submitters := h.holder_moves rfl (fun j _ => Phase.holder_idle j) (fun _ => Phase.holder_of_ne rfl)
        workers := fun w => (h.workers w).outside (by simp) (by simp)
        calls := fun _ _ => hready, round := (by simp), job := (by simp) }
  | @fallback job hpc hpar =>
    have hready := h.calls i (by rw [hpc]; simp)
    rw [hpc] at hok
    exact ⟨_, .refl, h.moveSubmitter hready ⟨hok, hpar⟩ (owned_setSubmitter_keep h.stateMutex (by rw [hpc]; exact Iff.rfl))⟩
  | @scalarWrite job c hpc hc =>
    have hready := h.calls i (by rw [hpc]; simp)
    rw [hpc] at hok
    obtain ⟨hphase, hpar⟩ := hok
    cases hphase
    refine ⟨_, .single ⟨_, rfl, .scalarWrite hpar hc⟩, ?_⟩
    refine { h with
      memory := by rw [← hmemory], stateMutex := owned_setSubmitter_keep h.stateMutex (by rw [hpc]; exact Iff.rfl)
      submitters := h.holder_moves ⟨rfl, hpar⟩ (fun _ => Phase.holder_of_ne rfl) (fun _ => Phase.holder_of_ne rfl)
      workers := fun w => (h.workers w).outside (by simp) (by simp)
      calls := fun _ _ => hready, round := (by simp), job := (by simp) }
  | @scalarReturn job c hpc hc =>
    have hready := h.calls i (by rw [hpc]; simp)
    rw [hpc] at hok
    obtain ⟨hphase, hpar⟩ := hok
    cases hphase
    refine ⟨_, .single ⟨_, rfl, .scalarReturn hpar hc⟩, ?_⟩
    refine { h with
      submitMutex := rfl, stateMutex := owned_setSubmitter_keep h.stateMutex (by rw [hpc]; exact Iff.rfl)
      submitters := h.holder_moves (Phase.holder_idle i) (fun _ => Phase.holder_of_ne rfl) (fun j _ => Phase.holder_idle j)
      workers := fun w => (h.workers w).outside (by simp) (by simp)
      calls := fun _ _ => hready, round := (by simp), job := (by simp) }
  | @lock job hpc hpar hfree =>
    have hready := h.calls i (by rw [hpc]; simp)
    rw [hpc] at hok
    exact ⟨_, .refl, h.moveSubmitter hready ⟨hok, hpar⟩ (owned_setSubmitter_acquire h.stateMutex hfree trivial)⟩
  | @publish job hpc =>
    have hready := h.calls i (by rw [hpc]; simp)
    rw [hpc] at hok
    obtain ⟨hphase, hpar⟩ := hok
    cases hphase
    have hstop := (h.ready hready).2
    refine ⟨_, .single ⟨_, rfl, .publish hpar⟩, ?_⟩
    refine { h with
      submitMutex := hsubmit, stateMutex := owned_setSubmitter_release h.stateMutex (by rw [hpc]; trivial) id
      submitters := h.holder_moves ⟨_, rfl, rfl, rfl, rfl⟩ (fun _ => Phase.holder_of_ne rfl) (fun _ => Phase.holder_of_ne rfl)
      workers := fun w => ?_, constructing := fun h' => ?_, calls := fun _ _ => hready
      completed_le := Nat.zero_le _, round := ?_, job := ?_ }
    · have hworker := h.workers w
      rw [hstop] at hworker
      show WorkerOk _ (s.generation + 1) s.stopping w (s.workers w)
      rw [hstop]
      exact hworker.published (by simp)
    · have hmain : s.main = .constructing := h'
      rw [hready] at hmain
      cases hmain
    · rintro r ⟨⟩
      refine ⟨?_, rfl⟩
      have hnone : (Finset.Icc 1 s.started).filter (fun w => Shard.isRecorded .pending = true) = ∅ :=
        Finset.filter_false_of_mem fun w _ => Bool.false_ne_true
      exact (congrArg Finset.card hnone).symm
    · rintro r w ⟨⟩ - -
      rfl
  | @notifyAll job hpc =>
    have hready := h.calls i (by rw [hpc]; simp)
    rw [hpc] at hok
    have hmove : Tracks totalThreads (s.setSubmitter i (.notified job)) ⟨m, phase⟩ := h.moveSubmitter hready hok
      (owned_setSubmitter_keep h.stateMutex (by rw [hpc]; exact Iff.rfl))
    exact ⟨_, .refl, hmove.notifyReady⟩
  | @begin job hpc =>
    rw [hpc] at hok
    obtain ⟨r, hphase, rfl, rfl, hpending⟩ := hok
    cases hphase
    have hstep : SerialStep totalThreads throws ⟨m, .round r⟩ (.begin (.submitter r.submitter) 0 r.job)
        ⟨m, .round (r.set 0 (.running 0))⟩ := .begin h.pos hpending
    refine ⟨_, .single ⟨_, rfl, hstep⟩, ?_⟩
    rw [← hmemory] at h ⊢
    exact h.callerEvent ⟨_, rfl, rfl, rfl, Round.set_self _ _ _⟩
      (owned_setSubmitter_keep h.stateMutex (by rw [hpc]; exact Iff.rfl)) (by simp) (by rw [hpending]; rfl)
  | @write job c hpc hc =>
    obtain ⟨m', r, ha, rfl, rfl, hshard⟩ := h.round_of_caller hpc
    cases ha
    refine ⟨_, .single ⟨_, rfl, .write h.pos hshard hc⟩, ?_⟩
    rw [← hmemory] at h ⊢
    exact h.callerEvent ⟨_, rfl, rfl, rfl, Round.set_self _ _ _⟩
      (owned_setSubmitter_keep h.stateMutex (by rw [hpc]; exact Iff.rfl)) (by simp) (by rw [hshard]; rfl)
  | @finish job c hpc hc =>
    obtain ⟨m', r, ha, rfl, rfl, hshard⟩ := h.round_of_caller hpc
    cases ha
    refine ⟨_, .single ⟨_, rfl, .finish h.pos hshard (fun _ => hc) (by simp)⟩, ?_⟩
    rw [← hmemory] at h ⊢
    exact h.callerEvent ⟨_, rfl, rfl, c, Round.set_self _ _ _⟩
      (owned_setSubmitter_keep h.stateMutex (by rw [hpc]; exact Iff.rfl)) (by simp) (by rw [hshard]; rfl)
  | @throw job c e hpc he =>
    obtain ⟨m', r, ha, rfl, rfl, hshard⟩ := h.round_of_caller hpc
    cases ha
    have hstep : SerialStep totalThreads throws ⟨m, .round r⟩ (.finish 0 (some e)) ⟨m, .round (r.set 0 (.ended c (some e)))⟩ :=
      .finish h.pos hshard (by simp) (by rintro _ ⟨⟩; exact he)
    refine ⟨_, .single ⟨_, rfl, hstep⟩, ?_⟩
    rw [← hmemory] at h ⊢
    exact h.callerEvent ⟨_, rfl, rfl, c, Round.set_self _ _ _⟩
      (owned_setSubmitter_keep h.stateMutex (by rw [hpc]; exact Iff.rfl)) (by simp) (by rw [hshard]; rfl)
  | @lockDone e hpc hfree =>
    have hready := h.calls i (by rw [hpc]; simp)
    rw [hpc] at hok
    exact ⟨_, .refl, h.moveSubmitter hready hok (owned_setSubmitter_acquire h.stateMutex hfree trivial)⟩
  | @wait e hpc hpred =>
    have hready := h.calls i (by rw [hpc]; simp)
    rw [hpc] at hok
    exact ⟨_, .refl, h.moveSubmitter hready hok (owned_setSubmitter_release h.stateMutex (by rw [hpc]; trivial) id)⟩
  | @collect e hpc hpred =>
    have hready := h.calls i (by rw [hpc]; simp)
    rw [hpc] at hok
    obtain ⟨r, hphase, rfl, c, hshard⟩ := hok
    cases hphase
    obtain ⟨hcount, herror⟩ := h.round r rfl
    have hstarted := h.started_of_round
    have hT := toNat_lt totalThreads
    -- `completed_ == workers_.size()`: every worker has recorded
    have hall : ∀ w, 0 < w → w < totalThreads.toNat → (r.shards w).Final w := by
      intro w hw hlt
      rw [hpred, toNat_ofNat_of_lt (by omega)] at hcount
      rw [Shard.final_iff (Nat.ne_of_gt hw)]
      exact Round.recordedCount_eq_iff.1 hcount.symm w hw (by omega)
    have hok' : SubmitterOk totalThreads (.round r) r.submitter (.returning e s.workerError) :=
      ⟨r, rfl, rfl, ⟨c, hshard⟩, herror, hall⟩
    have hmove := h.moveSubmitter hready hok' (owned_setSubmitter_release h.stateMutex (by rw [hpc]; trivial) id)
    refine ⟨_, .refl, { hmove with job := ?_ }⟩
    rintro r' w ⟨⟩ hlt hs
    by_cases hw : w = 0
    · subst hw
      rw [hshard] at hs
      cases hs
    · have hfinal := hall w (by omega) hlt
      rw [hs] at hfinal
      exact hfinal.elim
  | @«return» e e' hpc =>
    have hready := h.calls i (by rw [hpc]; simp)
    rw [hpc] at hok
    obtain ⟨r, hphase, rfl, ⟨c, hshard⟩, rfl, hall⟩ := hok
    cases hphase
    have hstarted := h.started_of_round
    have hstep : SerialStep totalThreads throws ⟨m, .round r⟩ (.return r.submitter (outcome e r.error)) ⟨m, .idle⟩ := by
      rw [show e = (r.shards 0).error by rw [hshard]; rfl]
      refine .return fun shard hlt => ?_
      by_cases hzero : shard = 0
      · rw [hzero, hshard]
        exact rfl
      · exact hall shard (by omega) hlt
    refine ⟨_, .single ⟨_, rfl, hstep⟩, ?_⟩
    refine { h with
      submitMutex := rfl, stateMutex := owned_setSubmitter_keep h.stateMutex (by rw [hpc]; exact Iff.rfl)
      submitters := h.holder_moves (Phase.holder_idle _) (fun _ => Phase.holder_of_ne rfl) (fun j _ => Phase.holder_idle j)
      workers := fun w => ?_, calls := fun _ _ => hready, round := (by simp), job := (by simp) }
    by_cases hrange : 0 < w ∧ w ≤ s.started
    · exact (h.workers w).round_over (hall w hrange.1 (by omega)) hrange.1
    · exact .of_unstarted ((h.unstarted w).2 hrange)

omit [Scalar α] in
/-- **A step of the constructing or destroying thread** shows nothing. -/
theorem Tracks.main_step (h : Tracks totalThreads s a) (hs : MainStep totalThreads s l s') :
    l = none ∧ Tracks totalThreads s' a := by
  have hkeep : ∀ {pc : Main}, (pc.Inside ↔ s.main.Inside) → Owned ({ s with main := pc } : State α).inside s.stateMutex := by
    intro pc hpc
    refine h.stateMutex.keep fun t => ?_
    cases t with
    | main => exact hpc
    | _ => exact Iff.rfl
  cases hs with
  | start hpc hmore =>
    have hidle := h.idle_of_main (by rw [hpc]; simp)
    obtain ⟨hgen, -⟩ := h.constructing hpc
    have hnew : (s.workers (s.started + 1)).pc = .unstarted := (h.unstarted _).2 (by omega)
    refine ⟨rfl, { h with
      stateMutex := owned_setWorker_keep h.stateMutex (by rw [hnew]; exact Iff.rfl), workers := fun w => ?_,
      unstarted := fun w => ?_, started_lt := hmore, ready := fun h' => ?_, completed_le := Nat.le_succ_of_le h.completed_le,
      round := fun r h' => ?_ }⟩
    · by_cases heq : w = s.started + 1
      · subst heq
        rw [State.setWorker_self]
        refine .inr ⟨hgen.symm, fun r h' => ?_⟩
        rw [hidle] at h'
        cases h'
      · simp only [State.setWorker_of_ne heq]
        exact h.workers w
    · by_cases heq : w = s.started + 1
      · subst heq
        simp only [State.setWorker_self]
        exact ⟨(by simp), fun h' => absurd ⟨Nat.succ_pos _, Nat.le_refl _⟩ h'⟩
      · simp only [State.setWorker_of_ne heq]
        rw [h.unstarted w]
        omega
    · rw [show s.main = .ready from h'] at hpc
      cases hpc
    · rw [hidle] at h'
      cases h'
  | fail hpc hmore =>
    exact ⟨rfl, h.moveMain (h.out_of_main (by rw [hpc]; simp)) (by simp) (hkeep (by rw [hpc]; exact Iff.rfl))⟩
  | complete hpc hall =>
    have hlt := h.started_lt
    refine ⟨rfl, { h with
      stateMutex := hkeep (by rw [hpc]; exact Iff.rfl), ready := fun _ => ⟨?_, ?_⟩
      constructing := (by simp), calls := fun _ _ => rfl }⟩
    · show s.started + 1 = totalThreads.toNat
      omega
    · exact (h.constructing hpc).2
  | lock hpc hfree =>
    have hmutex : Owned ({ s with main := .setting } : State α).inside (some .main) := by
      have howned := h.stateMutex
      rw [hfree] at howned
      refine howned.acquire trivial fun t ht => ?_
      cases t with
      | main => exact absurd rfl ht
      | _ => exact Iff.rfl
    exact ⟨rfl, h.moveMain (h.out_of_main (by rw [hpc]; simp)) (by simp) hmutex⟩
  | set hpc =>
    have hmutex : Owned ({ s with main := .notifying } : State α).inside none := by
      refine h.stateMutex.release (t := .main) (by rw [State.inside, hpc]; trivial) id fun t ht => ?_
      cases t with
      | main => exact absurd rfl ht
      | _ => exact Iff.rfl
    have hmove := h.moveMain (h.out_of_main (by rw [hpc]; simp)) (by simp) hmutex
    exact ⟨rfl, { hmove with
      workers := fun w => (h.workers w).stop, ready := (by simp), constructing := (by simp) }⟩
  | notifyAll hpc =>
    have hout := h.out_of_main (by rw [hpc]; simp)
    have hmutex : Owned ({ s.notifyReady with main := .joining 1 } : State α).inside s.stateMutex := by
      refine h.notifyReady.stateMutex.keep fun t => ?_
      cases t with
      | main => rw [State.inside, State.inside, State.notifyReady, hpc]; exact Iff.rfl
      | _ => exact Iff.rfl
    exact ⟨rfl, h.notifyReady.moveMain hout (by simp) hmutex⟩
  | join hpc hw hexit =>
    exact ⟨rfl, h.moveMain (h.out_of_main (by rw [hpc]; simp)) (by simp) (hkeep (by rw [hpc]; exact Iff.rfl))⟩
  | joined hpc hw =>
    exact ⟨rfl, h.moveMain (h.out_of_main (by rw [hpc]; simp)) (by simp) (hkeep (by rw [hpc]; exact Iff.rfl))⟩

omit [Scalar α] in
/-- **What the callers decide** shows nothing. -/
theorem Tracks.environment (h : Tracks totalThreads s a) (hs : Environment s s') : Tracks totalThreads s' a := by
  cases hs with
  | @call i job hready hpc hcheck =>
    have hok := h.submitters i
    rw [hpc] at hok
    exact h.moveSubmitter hready ⟨hok, hcheck⟩ (owned_setSubmitter_keep h.stateMutex (by rw [hpc]; exact Iff.rfl))
  | destroy hready hout =>
    refine h.moveMain hout (by simp) (h.stateMutex.keep fun t => ?_)
    cases t with
    | main => rw [State.inside, State.inside, hready]; exact Iff.rfl
    | _ => exact Iff.rfl

/-- **One step of the executor** is a step of the serial machine with the same event, or none. -/
theorem Tracks.step (h : Tracks totalThreads s a) (hs : (system totalThreads throws).step s l s') :
    ∃ a', Run (serial totalThreads throws) a l.toList a' ∧ Tracks totalThreads s' a' := by
  rcases hs with hs | ⟨rfl, hs⟩
  · cases hs with
    | worker w hs => exact h.worker_step hs
    | submitter i hs => exact h.submitter_step hs
    | main hs =>
      obtain ⟨rfl, h'⟩ := h.main_step hs
      exact ⟨a, .refl, h'⟩
  · exact ⟨a, .refl, h.environment hs⟩

omit [Scalar α] in
theorem tracks_init (hpos : 0 < totalThreads.toNat) (memory : Memory α) :
    Tracks totalThreads (init memory) ⟨memory, .idle⟩ where
  memory := rfl
  submitMutex := rfl
  stateMutex t := by cases t <;> exact ⟨False.elim, fun h => nomatch h⟩
  submitters i := Phase.holder_idle i
  workers w := trivial
  unstarted w := ⟨fun _ h => absurd h.2 (Nat.not_le_of_lt h.1), fun _ => rfl⟩
  started_lt := hpos
  ready h := nomatch h
  constructing _ := ⟨rfl, rfl⟩
  calls i h := absurd rfl h
  completed_le := Nat.le_refl 0
  round r h := nomatch h
  job r w h := nomatch h

/-- **The executor refines the serial machine**: every run shows what some run of the serial machine
shows, and leaves the same memory. -/
theorem executor_refines_serial (hpos : 0 < totalThreads.toNat) {memory : Memory α} {t : List Event}
    (h : Run (system totalThreads throws) (init memory) t s) :
    ∃ a, Run (serial totalThreads throws) ⟨memory, .idle⟩ t a ∧ Tracks totalThreads s a :=
  h.simulate (fun _ _ _ _ hR hl => Tracks.step hR hl) (tracks_init hpos memory)

end

end Gpt2Runtime.LinearExecutor
