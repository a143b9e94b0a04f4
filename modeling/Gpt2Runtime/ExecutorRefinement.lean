import Gpt2Runtime.SerialExecutor
import Mathlib.Data.Finset.Card
import Mathlib.Order.Interval.Finset.Nat
/-
# The executor refines the serial machine

`Tracks` says which state of the serial machine the threads, the two mutexes and the shared variables
stand for. The invariant behind it: during a round every worker either has yet to take the published job,
and its generation is one behind, or has taken it, and its generation is the current one; outside a round
all generations agree; `completed_` counts the workers that recorded, `worker_error_` is the first
exception recorded, and `job_` is the round's job as long as somebody has yet to take it.
-/

namespace Gpt2Runtime.LinearExecutor

open Loop Flat Word Kernels Lts

variable {α : Type}

/-! ## Who is inside `state_mutex_` -/

def WorkerPc.Inside : WorkerPc → Prop
  | .testing => True
  | .recording _ => True
  | _ => False

def Submitter.Inside : Submitter → Prop
  | .publishing _ => True
  | .testing _ => True
  | _ => False

def Main.Inside : Main → Prop
  | .setting => True
  | _ => False

def State.inside (s : State α) : Thread → Prop
  | .worker w => (s.workers w).pc.Inside
  | .submitter i => (s.submitters i).Inside
  | .main => s.main.Inside

@[simp] theorem State.setWorker_self (s : State α) (w : Nat) (pc : WorkerPc) (o : UInt64) :
    (s.setWorker w pc o).workers w = ⟨pc, o⟩ := Function.update_self _ _ _

theorem State.setWorker_of_ne {s : State α} {w w' : Nat} {pc : WorkerPc} {o : UInt64} (h : w' ≠ w) :
    (s.setWorker w pc o).workers w' = s.workers w' := Function.update_of_ne h _ _

@[simp] theorem State.setSubmitter_self (s : State α) (i : Nat) (pc : Submitter) :
    (s.setSubmitter i pc).submitters i = pc := Function.update_self _ _ _

theorem State.setSubmitter_of_ne {s : State α} {i i' : Nat} {pc : Submitter} (h : i' ≠ i) :
    (s.setSubmitter i pc).submitters i' = s.submitters i' := Function.update_of_ne h _ _

theorem State.inside_setWorker {s : State α} {w : Nat} {pc : WorkerPc} {o : UInt64} {t : Thread} (h : t ≠ .worker w) :
    (s.setWorker w pc o).inside t ↔ s.inside t := by
  cases t with
  | worker w' =>
    have hw : w' ≠ w := fun heq => h (congrArg _ heq)
    simp only [State.inside, State.setWorker_of_ne hw]
  | submitter i => exact Iff.rfl
  | main => exact Iff.rfl

theorem State.inside_setSubmitter {s : State α} {i : Nat} {pc : Submitter} {t : Thread} (h : t ≠ .submitter i) :
    (s.setSubmitter i pc).inside t ↔ s.inside t := by
  cases t with
  | worker w => exact Iff.rfl
  | submitter i' =>
    have hi : i' ≠ i := fun heq => h (congrArg _ heq)
    simp only [State.inside, State.setSubmitter_of_ne hi]
  | main => exact Iff.rfl

/-- A move of worker `w` that neither enters nor leaves the mutex. -/
theorem owned_setWorker_keep {s : State α} {w : Nat} {pc : WorkerPc} {o : UInt64} (h : Owned s.inside s.stateMutex)
    (hpc : pc.Inside ↔ (s.workers w).pc.Inside) : Owned (s.setWorker w pc o).inside s.stateMutex := by
  refine h.keep fun t => ?_
  by_cases ht : t = .worker w
  · subst ht
    simpa only [State.inside, State.setWorker_self] using hpc
  · exact State.inside_setWorker ht

theorem owned_setWorker_acquire {s : State α} {w : Nat} {pc : WorkerPc} {o : UInt64} (h : Owned s.inside s.stateMutex)
    (hfree : s.stateMutex = none) (hpc : pc.Inside) : Owned (s.setWorker w pc o).inside (some (.worker w)) := by
  rw [hfree] at h
  exact h.acquire (by simpa only [State.inside, State.setWorker_self] using hpc) fun t ht => State.inside_setWorker ht

theorem owned_setWorker_release {s : State α} {w : Nat} {pc : WorkerPc} {o : UInt64} (h : Owned s.inside s.stateMutex)
    (hin : (s.workers w).pc.Inside) (hpc : ¬pc.Inside) : Owned (s.setWorker w pc o).inside none :=
  h.release (t := .worker w) hin (by simpa only [State.inside, State.setWorker_self] using hpc)
    fun t ht => State.inside_setWorker ht

theorem owned_setSubmitter_keep {s : State α} {i : Nat} {pc : Submitter} (h : Owned s.inside s.stateMutex)
    (hpc : pc.Inside ↔ (s.submitters i).Inside) : Owned (s.setSubmitter i pc).inside s.stateMutex := by
  refine h.keep fun t => ?_
  by_cases ht : t = .submitter i
  · subst ht
    simpa only [State.inside, State.setSubmitter_self] using hpc
  · exact State.inside_setSubmitter ht

theorem owned_setSubmitter_acquire {s : State α} {i : Nat} {pc : Submitter} (h : Owned s.inside s.stateMutex)
    (hfree : s.stateMutex = none) (hpc : pc.Inside) : Owned (s.setSubmitter i pc).inside (some (.submitter i)) := by
  rw [hfree] at h
  exact h.acquire (by simpa only [State.inside, State.setSubmitter_self] using hpc) fun t ht => State.inside_setSubmitter ht

theorem owned_setSubmitter_release {s : State α} {i : Nat} {pc : Submitter} (h : Owned s.inside s.stateMutex)
    (hin : (s.submitters i).Inside) (hpc : ¬pc.Inside) : Owned (s.setSubmitter i pc).inside none :=
  h.release (t := .submitter i) hin (by simpa only [State.inside, State.setSubmitter_self] using hpc)
    fun t ht => State.inside_setSubmitter ht

/-! ## The correspondence -/

/-- Who holds `submit_mutex_`. -/
def Phase.holder : Phase → Option Nat
  | .idle => none
  | .admitted i _ _ => some i
  | .round r => some r.submitter

theorem Phase.holder_idle (i : Nat) : Phase.idle.holder ≠ some i := (Option.some_ne_none i).symm

theorem Phase.holder_of_ne {phase : Phase} {i j : Nat} (h : phase.holder = some i) (hj : j ≠ i) : phase.holder ≠ some j := by
  rw [h]
  exact fun h' => hj (Option.some.inj h').symm

/-- Where submitter `i` can stand. -/
def SubmitterOk (totalThreads : UInt64) (phase : Phase) (i : Nat) : Submitter → Prop
  | .outside => phase.holder ≠ some i
  | .entering job => phase.holder ≠ some i ∧ job.check = .ok ()
  | .admitted job => phase = .admitted i job 0
  | .scalar job c => phase = .admitted i job c ∧ ¬Parallel totalThreads job
  | .publishing job => phase = .admitted i job 0 ∧ Parallel totalThreads job
  | .notifying job | .notified job => ∃ r, phase = .round r ∧ r.submitter = i ∧ r.job = job ∧ r.shards 0 = .pending
  | .running job c => ∃ r, phase = .round r ∧ r.submitter = i ∧ r.job = job ∧ r.shards 0 = .running c
  | .joining e | .testing e | .asleep e => ∃ r, phase = .round r ∧ r.submitter = i ∧ ∃ c, r.shards 0 = .ended c e
  | .returning e e' => ∃ r, phase = .round r ∧ r.submitter = i ∧ (∃ c, r.shards 0 = .ended c e) ∧ e' = r.error ∧
    ∀ w, 0 < w → w < totalThreads.toNat → (r.shards w).Final w

/-- The worker has yet to take the round's job, or is through with everything published so far. -/
def Between (phase : Phase) (generation : UInt64) (w : Nat) (observed : UInt64) : Prop :=
  (∃ r, phase = .round r ∧ r.shards w = .pending ∧ observed + 1 = generation) ∨
    (observed = generation ∧ ∀ r, phase = .round r → (r.shards w).Final w)

/-- Where worker `w` can stand. -/
def WorkerOk (phase : Phase) (generation : UInt64) (stopping : Bool) (w : Nat) (worker : Worker) : Prop :=
  match worker.pc with
  | .unstarted => True
  | .entering | .testing | .asleep | .notifying => Between phase generation w worker.observedGeneration
  | .running job c => worker.observedGeneration = generation ∧
    ∃ r, phase = .round r ∧ r.job = job ∧ r.shards w = .running c
  | .finishing e | .recording e => worker.observedGeneration = generation ∧
    ∃ r, phase = .round r ∧ ∃ c, r.shards w = .ended c e
  | .exited => stopping = true

def Shard.isRecorded : Shard → Bool
  | .recorded _ _ => true
  | _ => false

/-- The number of workers that have recorded. -/
def Round.recordedCount (r : Round) (started : Nat) : Nat :=
  ((Finset.Icc 1 started).filter fun w => (r.shards w).isRecorded = true).card

structure Tracks (totalThreads : UInt64) (s : State α) (a : Serial α) : Prop where
  memory : s.memory = a.memory
  submitMutex : s.submitMutex = a.phase.holder
  stateMutex : Owned s.inside s.stateMutex
  submitters : ∀ i, SubmitterOk totalThreads a.phase i (s.submitters i)
  workers : ∀ w, WorkerOk a.phase s.generation s.stopping w (s.workers w)
  unstarted : ∀ w, (s.workers w).pc = .unstarted ↔ ¬(0 < w ∧ w ≤ s.started)
  started_lt : s.started < totalThreads.toNat
  ready : s.main = .ready → s.started + 1 = totalThreads.toNat ∧ s.stopping = false
  constructing : s.main = .constructing → s.generation = 0 ∧ s.stopping = false
  calls : ∀ i, s.submitters i ≠ .outside → s.main = .ready
  completed_le : s.completed.toNat ≤ s.started
  round : ∀ r, a.phase = .round r → s.completed.toNat = r.recordedCount s.started ∧ s.workerError = r.error
  job : ∀ r w, a.phase = .round r → w < totalThreads.toNat → r.shards w = .pending → s.job = r.job

theorem Shard.final_iff {shard : Nat} (h : shard ≠ 0) (progress : Shard) :
    progress.Final shard ↔ progress.isRecorded = true := by
  cases progress <;> simp [Shard.Final, Shard.isRecorded, h]

namespace Round

variable {r : Round} {w started : Nat} {progress : Shard} {error : Option Exc}

theorem record_shards (r : Round) (w : Nat) (progress : Shard) (error : Option Exc) :
    ({ r.set w progress with error } : Round).shards = Function.update r.shards w progress := rfl

theorem recordedCount_le (r : Round) (started : Nat) : r.recordedCount started ≤ started := by
  refine Nat.le_trans (Finset.card_filter_le _ _) ?_
  rw [Nat.card_Icc, Nat.add_sub_cancel]

/-- All workers have recorded. -/
theorem recordedCount_eq_iff : r.recordedCount started = started ↔
    ∀ w, 0 < w → w ≤ started → (r.shards w).isRecorded = true := by
  have hcard : (Finset.Icc 1 started).card = started := by rw [Nat.card_Icc, Nat.add_sub_cancel]
  have hiff := Finset.card_filter_eq_iff (s := Finset.Icc 1 started) (p := fun w => (r.shards w).isRecorded = true)
  rw [hcard] at hiff
  rw [recordedCount, hiff]
  simp only [Finset.mem_Icc, and_imp]
  exact Iff.rfl

theorem recordedCount_set (h : progress.isRecorded = (r.shards w).isRecorded) :
    ({ r.set w progress with error } : Round).recordedCount started = r.recordedCount started := by
  refine congrArg Finset.card (Finset.filter_congr fun w' _ => ?_)
  by_cases heq : w' = w
  · subst heq
    rw [record_shards, Function.update_self, h]
  · rw [record_shards, Function.update_of_ne heq]

/-- One more worker has recorded. -/
theorem recordedCount_succ (hw : 0 < w) (hle : w ≤ started) (hnot : (r.shards w).isRecorded = false)
    (h : progress.isRecorded = true) :
    ({ r.set w progress with error } : Round).recordedCount started = r.recordedCount started + 1 := by
  have hfilter : ((Finset.Icc 1 started).filter fun w' =>
      (({ r.set w progress with error } : Round).shards w').isRecorded = true) =
      insert w ((Finset.Icc 1 started).filter fun w' => (r.shards w').isRecorded = true) := by
    ext w'
    simp only [Finset.mem_filter, Finset.mem_insert, Finset.mem_Icc]
    by_cases heq : w' = w
    · subst heq
      rw [record_shards, Function.update_self]
      exact ⟨fun _ => .inl rfl, fun _ => ⟨⟨hw, hle⟩, h⟩⟩
    · rw [record_shards, Function.update_of_ne heq]
      exact ⟨.inr, fun h' => h'.resolve_left heq⟩
  rw [recordedCount, hfilter, Finset.card_insert_of_notMem, recordedCount]
  rw [Finset.mem_filter, hnot]
  exact fun h' => absurd h'.2 Bool.false_ne_true

end Round

theorem WorkerOk.of_unstarted {phase : Phase} {generation : UInt64} {stopping : Bool} {w : Nat} {worker : Worker}
    (h : worker.pc = .unstarted) : WorkerOk phase generation stopping w worker := by
  unfold WorkerOk
  rw [h]
  trivial

/-! ## Threads an event does not concern -/

/-- A submitter that does not hold `submit_mutex_` does not notice what the holder does. -/
theorem SubmitterOk.other {totalThreads : UInt64} {phase phase' : Phase} {i : Nat} {pc : Submitter}
    (h : SubmitterOk totalThreads phase i pc) (hne : phase.holder ≠ some i) (hne' : phase'.holder ≠ some i) :
    SubmitterOk totalThreads phase' i pc := by
  cases pc with
  | outside => exact hne'
  | entering job => exact ⟨hne', h.2⟩
  | admitted job =>
    cases h
    exact absurd rfl hne
  | scalar job c =>
    obtain ⟨rfl, -⟩ := h
    exact absurd rfl hne
  | publishing job =>
    obtain ⟨rfl, -⟩ := h
    exact absurd rfl hne
  | notifying job | notified job | running job c | joining e | testing e | asleep e | returning e e' =>
    obtain ⟨r, rfl, rfl, -⟩ := h
    exact absurd rfl hne

section

variable {totalThreads : UInt64} {r : Round} {w : Nat} {progress : Shard} {error : Option Exc}

/-- What a worker does to its shard leaves the submitter where it stands. -/
theorem SubmitterOk.shard {i : Nat} {pc : Submitter} (h : SubmitterOk totalThreads (.round r) i pc) (hw : 0 < w)
    (hlt : w < totalThreads.toNat) (hnot : ¬(r.shards w).Final w) :
    SubmitterOk totalThreads (.round { r.set w progress with error }) i pc := by
  have hzero : ({ r.set w progress with error } : Round).shards 0 = r.shards 0 := Round.set_of_ne (Nat.ne_of_lt hw)
  cases pc with
  | outside => exact h
  | entering job => exact h
  | admitted job => cases h
  | scalar job c => exact absurd h.1 (by simp)
  | publishing job => exact absurd h.1 (by simp)
  | notifying job | notified job | running job c =>
    obtain ⟨r', hr, rfl, rfl, hs⟩ := h
    cases hr
    exact ⟨_, rfl, rfl, rfl, hzero.trans hs⟩
  | joining e | testing e | asleep e =>
    obtain ⟨r', hr, rfl, c, hs⟩ := h
    cases hr
    exact ⟨_, rfl, rfl, c, hzero.trans hs⟩
  | returning e e' =>
    obtain ⟨r', hr, rfl, -, -, hall⟩ := h
    cases hr
    exact absurd (hall w hw hlt) hnot

/-- What happens to one shard leaves the other workers where they stand. -/
theorem WorkerOk.shard {generation : UInt64} {stopping : Bool} {w' : Nat} {worker : Worker}
    (h : WorkerOk (.round r) generation stopping w' worker) (hne : w' ≠ w) :
    WorkerOk (.round { r.set w progress with error }) generation stopping w' worker := by
  have hshard : ({ r.set w progress with error } : Round).shards w' = r.shards w' := Round.set_of_ne hne
  obtain ⟨pc, o⟩ := worker
  cases pc with
  | unstarted => trivial
  | entering | testing | asleep | notifying =>
    rcases h with ⟨r', hr, hs, ho⟩ | ⟨ho, hfinal⟩
    · cases hr
      exact .inl ⟨_, rfl, hshard.trans hs, ho⟩
    · refine .inr ⟨ho, ?_⟩
      rintro r' ⟨⟩
      rw [hshard]
      exact hfinal r rfl
  | running job c =>
    obtain ⟨ho, r', hr, rfl, hs⟩ := h
    cases hr
    exact ⟨ho, _, rfl, rfl, hshard.trans hs⟩
  | finishing e | recording e =>
    obtain ⟨ho, r', hr, c, hs⟩ := h
    cases hr
    exact ⟨ho, _, rfl, c, hshard.trans hs⟩
  | exited => exact h

theorem WorkerOk.stop {phase : Phase} {generation : UInt64} {stopping : Bool} {worker : Worker}
    (h : WorkerOk phase generation stopping w worker) : WorkerOk phase generation true w worker := by
  obtain ⟨pc, o⟩ := worker
  cases pc with
  | exited => exact rfl
  | _ => exact h

/-- Outside rounds all workers stand between jobs. -/
theorem WorkerOk.outside {phase phase' : Phase} {generation : UInt64} {stopping : Bool} {worker : Worker}
    (h : WorkerOk phase generation stopping w worker) (hphase : ∀ r, phase ≠ .round r) (hphase' : ∀ r, phase' ≠ .round r) :
    WorkerOk phase' generation stopping w worker := by
  obtain ⟨pc, o⟩ := worker
  cases pc with
  | unstarted => trivial
  | entering | testing | asleep | notifying =>
    rcases h with ⟨r, hr, -⟩ | ⟨ho, -⟩
    · exact absurd hr (hphase r)
    · exact .inr ⟨ho, fun r hr => absurd hr (hphase' r)⟩
  | running job c =>
    obtain ⟨-, r, hr, -⟩ := h
    exact absurd hr (hphase r)
  | finishing e | recording e =>
    obtain ⟨-, r, hr, -⟩ := h
    exact absurd hr (hphase r)
  | exited => exact h

/-- Once every worker has recorded, all of them stand between jobs. -/
theorem WorkerOk.round_over {generation : UInt64} {stopping : Bool} {worker : Worker}
    (h : WorkerOk (.round r) generation stopping w worker) (hfinal : (r.shards w).Final w) (hw : 0 < w) :
    WorkerOk .idle generation stopping w worker := by
  obtain ⟨pc, o⟩ := worker
  cases pc with
  | unstarted => trivial
  | entering | testing | asleep | notifying =>
    rcases h with ⟨r', hr, hs, -⟩ | ⟨ho, -⟩
    · cases hr
      rw [hs] at hfinal
      exact hfinal.elim
    · exact .inr ⟨ho, fun r' hr => nomatch hr⟩
  | running job c =>
    obtain ⟨-, r', hr, -, hs⟩ := h
    cases hr
    rw [hs] at hfinal
    exact hfinal.elim
  | finishing e | recording e =>
    obtain ⟨-, r', hr, c, hs⟩ := h
    cases hr
    rw [hs] at hfinal
    exact absurd hfinal (Nat.ne_of_gt hw)
  | exited => exact h

/-- A publication starts the round: every worker is one generation behind. -/
theorem WorkerOk.published {phase : Phase} {generation : UInt64} {worker : Worker} {i : Nat} {job : Job}
    (h : WorkerOk phase generation false w worker) (hphase : ∀ r, phase ≠ .round r) :
    WorkerOk (.round ⟨i, job, fun _ => .pending, none⟩) (generation + 1) false w worker := by
  obtain ⟨pc, o⟩ := worker
  cases pc with
  | unstarted => trivial
  | entering | testing | asleep | notifying =>
    rcases h with ⟨r, hr, -⟩ | ⟨ho, -⟩
    · exact absurd hr (hphase r)
    · exact .inl ⟨_, rfl, rfl, by rw [show o = generation from ho]⟩
  | running job c =>
    obtain ⟨-, r, hr, -⟩ := h
    exact absurd hr (hphase r)
  | finishing e | recording e =>
    obtain ⟨-, r, hr, -⟩ := h
    exact absurd hr (hphase r)
  | exited => exact h

end

namespace Tracks

variable {totalThreads : UInt64} {s : State α} {a : Serial α}

/-! ## Silent moves -/

/-- A worker moves, and nothing it shares with the others changes but the mutex. -/
theorem moveWorker (h : Tracks totalThreads s a) {w : Nat} {pc : WorkerPc} {o : UInt64} {mutex : Option Thread}
    (hold : (s.workers w).pc ≠ .unstarted) (hpc : pc ≠ .unstarted)
    (hok : WorkerOk a.phase s.generation s.stopping w ⟨pc, o⟩) (hmutex : Owned (s.setWorker w pc o).inside mutex) :
    Tracks totalThreads { s.setWorker w pc o with stateMutex := mutex } a := by
  refine { h with stateMutex := hmutex, workers := fun w' => ?_, unstarted := fun w' => ?_ }
  · by_cases heq : w' = w
    · subst heq
      rw [State.setWorker_self]
      exact hok
    · simp only [State.setWorker_of_ne heq]
      exact h.workers w'
  · by_cases heq : w' = w
    · subst heq
      simp only [State.setWorker_self]
      have hw := h.unstarted w'
      exact ⟨fun h' => absurd h' hpc, fun h' => absurd (hw.2 h') hold⟩
    · simp only [State.setWorker_of_ne heq]
      exact h.unstarted w'

/-- A submitter inside `linear` moves. -/
theorem moveSubmitter (h : Tracks totalThreads s a) {i : Nat} {pc : Submitter} {mutex : Option Thread}
    (hready : s.main = .ready) (hok : SubmitterOk totalThreads a.phase i pc)
    (hmutex : Owned (s.setSubmitter i pc).inside mutex) :
    Tracks totalThreads { s.setSubmitter i pc with stateMutex := mutex } a := by
  refine { h with stateMutex := hmutex, submitters := fun i' => ?_, calls := fun _ _ => hready }
  by_cases heq : i' = i
  · subst heq
    simpa only [State.setSubmitter_self] using hok
  · simp only [State.setSubmitter_of_ne heq]
    exact h.submitters i'

/-- The phase changes by what submitter `i` does: the others do not notice. -/
theorem holder_moves (h : Tracks totalThreads s a) {i : Nat} {pc : Submitter} {phase : Phase}
    (hok : SubmitterOk totalThreads phase i pc) (hold : ∀ j, j ≠ i → a.phase.holder ≠ some j)
    (hnew : ∀ j, j ≠ i → phase.holder ≠ some j) (j : Nat) :
    SubmitterOk totalThreads phase j ((s.setSubmitter i pc).submitters j) := by
  by_cases heq : j = i
  · subst heq
    rwa [State.setSubmitter_self]
  · rw [State.setSubmitter_of_ne heq]
    exact (h.submitters j).other (hold j heq) (hnew j heq)

/-- The constructing or destroying thread moves. -/
theorem moveMain (h : Tracks totalThreads s a) {pc : Main} {mutex : Option Thread}
    (hout : ∀ i, s.submitters i = .outside) (hpc : pc ≠ .ready ∧ pc ≠ .constructing)
    (hmutex : Owned ({ s with main := pc } : State α).inside mutex) :
    Tracks totalThreads { s with main := pc, stateMutex := mutex } a :=
  { h with
    stateMutex := hmutex
    ready := fun h' => absurd h' hpc.1
    constructing := fun h' => absurd h' hpc.2
    calls := fun i hi => absurd (hout i) hi }

theorem out_of_main (h : Tracks totalThreads s a) (hmain : s.main ≠ .ready) (i : Nat) : s.submitters i = .outside := by
  by_contra hi
  exact hmain (h.calls i hi)

/-- Nobody holds `submit_mutex_` when nobody is inside `linear`. -/
theorem idle_of_main (h : Tracks totalThreads s a) (hmain : s.main ≠ .ready) : a.phase = .idle := by
  have hsub : ∀ i, a.phase.holder ≠ some i := by
    intro i
    have hi := h.submitters i
    rw [h.out_of_main hmain i] at hi
    exact hi
  cases hphase : a.phase with
  | idle => rfl
  | admitted i job c => rw [hphase] at hsub; exact absurd rfl (hsub i)
  | round r => rw [hphase] at hsub; exact absurd rfl (hsub r.submitter)

theorem mainReady (h : Tracks totalThreads s a) (hphase : a.phase ≠ .idle) : s.main = .ready := by
  by_contra hmain
  exact hphase (h.idle_of_main hmain)

theorem worker_range (h : Tracks totalThreads s a) {w : Nat} (hw : (s.workers w).pc ≠ .unstarted) :
    0 < w ∧ w ≤ s.started := by
  by_contra hnot
  exact hw ((h.unstarted w).2 hnot)

/-- Waking the waiters of `work_ready_`. -/
theorem notifyReady (h : Tracks totalThreads s a) : Tracks totalThreads s.notifyReady a := by
  have hwake : ∀ worker : Worker, worker.wake.observedGeneration = worker.observedGeneration ∧
      (worker.wake.pc.Inside ↔ worker.pc.Inside) ∧ (worker.wake.pc = .unstarted ↔ worker.pc = .unstarted) ∧
      ∀ w, WorkerOk a.phase s.generation s.stopping w worker → WorkerOk a.phase s.generation s.stopping w worker.wake := by
    rintro ⟨pc, o⟩
    cases pc with
    | asleep => exact ⟨rfl, Iff.rfl, by simp [Worker.wake], fun w hw => hw⟩
    | _ => exact ⟨rfl, Iff.rfl, Iff.rfl, fun w hw => hw⟩
  refine { h with stateMutex := h.stateMutex.keep fun t => ?_, workers := fun w => ?_, unstarted := fun w => ?_ }
  · cases t with
    | worker w => exact (hwake (s.workers w)).2.1
    | _ => exact Iff.rfl
  · exact (hwake (s.workers w)).2.2.2 w (h.workers w)
  · exact (hwake (s.workers w)).2.2.1.trans (h.unstarted w)

/-- Waking one waiter of `work_done_`. -/
theorem notifyDone (h : Tracks totalThreads s a) {i : Nat} (hi : s.workDone i) : Tracks totalThreads (s.notifyDone i) a := by
  obtain ⟨e, he⟩ := hi
  have hok := h.submitters i
  have hready : s.main = .ready := h.calls i (by rw [he]; simp)
  rw [he] at hok
  have hmove : Tracks totalThreads (s.setSubmitter i (.joining e)) a := h.moveSubmitter hready hok
    (owned_setSubmitter_keep h.stateMutex (by rw [he]; exact Iff.rfl))
  rw [State.notifyDone, he]
  exact hmove

end Tracks

end Gpt2Runtime.LinearExecutor
