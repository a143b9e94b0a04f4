import Gpt2Runtime.ExecutorProgress
import Gpt2Runtime.ExecutorSubmissions
import Gpt2Runtime.Lib.Termination
/-
# Every call of the executor returns

An enabled step in every state does not yet bring a call back: the threads could wake each other for ever. They
cannot: `remaining` bounds the steps the threads still make before a caller moves, and every step lowers it
(`Step.remaining_lt`). A thread pays for what it sets off: a publication for the shards of all workers, a
notification for the waiters it wakes.
-/

namespace Gpt2Runtime.LinearExecutor

open Loop Flat Word Kernels Lts

variable {α : Type} (totalThreads : UInt64)

/-! ## The measure -/

/-- The steps of a worker until it is asleep, when no work is ready. -/
def WorkerPc.remaining (w : Nat) : WorkerPc → Nat
  | .unstarted => 3
  | .entering => 2
  | .testing => 1
  | .asleep => 0
  | .running job c => 8 + (shardCount totalThreads job w - c)
  | .finishing _ => 7
  | .recording _ => 6
  | .notifying => 5
  | .exited => 0

def WorkerPc.isStarted : WorkerPc → Bool
  | .unstarted => false
  | _ => true

/-- A worker that has yet to take the published job. -/
def Worker.Stale (worker : Worker) (generation : UInt64) : Prop :=
  worker.pc.isStarted = true ∧ generation ≠ worker.observedGeneration

instance (worker : Worker) (generation : UInt64) : Decidable (worker.Stale generation) := inferInstanceAs (Decidable (_ ∧ _))

def State.workerRemaining (s : State α) (w : Nat) : Nat :=
  (s.workers w).pc.remaining totalThreads w +
    if (s.workers w).Stale s.generation then 8 + shardCount totalThreads s.job w else 0

/-- What a publication makes the workers do. -/
def roundRemaining (job : Job) : Nat := ∑ w ∈ Finset.range totalThreads.toNat, (8 + shardCount totalThreads job w)

/-- The steps of a submitter until it is outside, with those of the workers it wakes. -/
def Submitter.remaining : Submitter → Nat
  | .outside => 0
  | .entering job =>
    9 + shardCount totalThreads job 0 + 2 * totalThreads.toNat + roundRemaining totalThreads job + job.outputChannels.toNat
  | .admitted job =>
    8 + shardCount totalThreads job 0 + 2 * totalThreads.toNat + roundRemaining totalThreads job + job.outputChannels.toNat
  | .scalar job c => 1 + (job.outputChannels.toNat - c)
  | .publishing job => 7 + shardCount totalThreads job 0 + 2 * totalThreads.toNat + roundRemaining totalThreads job
  | .notifying job => 6 + shardCount totalThreads job 0 + 2 * totalThreads.toNat
  | .notified job => 5 + shardCount totalThreads job 0
  | .running job c => 4 + (shardCount totalThreads job 0 - c)
  | .joining _ => 3
  | .testing _ => 2
  | .asleep _ => 1
  | .returning _ _ => 1

def Main.remaining (started : Nat) : Main → Nat
  | .constructing => 3 * totalThreads.toNat + 6
  | .ready => 0
  | .stopping => 2 * totalThreads.toNat + started + 4
  | .setting => 2 * totalThreads.toNat + started + 3
  | .notifying => 2 * totalThreads.toNat + started + 2
  | .joining w => started + 1 - w + 1
  | .stopped => 0

/-- The workers, the submitters below `n` and the thread that owns the executor. -/
def State.remaining (n : Nat) (s : State α) : Nat :=
  (∑ w ∈ Finset.range totalThreads.toNat, s.workerRemaining totalThreads w) +
    (∑ i ∈ Finset.range n, (s.submitters i).remaining totalThreads) + s.main.remaining totalThreads s.started

/-- Nobody from `n` on has called. -/
def State.CallersBelow (n : Nat) (s : State α) : Prop := ∀ i, n ≤ i → s.submitters i = .outside

variable {totalThreads} {s s' : State α} {n : Nat}

/-! ## One thread moves -/

theorem shardCount_empty (w : Nat) : shardCount totalThreads .empty w = 0 := by
  simp [shardCount, shardRange, Job.empty]

/-- A worker that moves, and what the state becomes besides. -/
theorem workerRemaining_update {w : Nat} (hw : w < totalThreads.toNat) (hsame : ∀ v, v ≠ w → s'.workers v = s.workers v)
    (hgen : s'.generation = s.generation) (hjob : s'.job = s.job) :
    (∑ v ∈ Finset.range totalThreads.toNat, s'.workerRemaining totalThreads v) + s.workerRemaining totalThreads w =
      (∑ v ∈ Finset.range totalThreads.toNat, s.workerRemaining totalThreads v) + s'.workerRemaining totalThreads w := by
  refine sum_exchange hw fun v hv => ?_
  simp only [State.workerRemaining, hsame v hv, hgen, hjob]

variable (totalThreads) in
theorem submitterRemaining_update {i : Nat} (hi : i < n) (hsame : ∀ j, j ≠ i → s'.submitters j = s.submitters j) :
    (∑ j ∈ Finset.range n, (s'.submitters j).remaining totalThreads) + (s.submitters i).remaining totalThreads =
      (∑ j ∈ Finset.range n, (s.submitters j).remaining totalThreads) + (s'.submitters i).remaining totalThreads := by
  refine sum_exchange (f := fun j => (s.submitters j).remaining totalThreads)
    (g := fun j => (s'.submitters j).remaining totalThreads) hi fun j hj => ?_
  rw [hsame j hj]

theorem State.CallersBelow.lt {i : Nat} (h : s.CallersBelow n) (hi : s.submitters i ≠ .outside) : i < n := by
  by_contra hge
  exact hi (h i (by omega))

/-- A notification makes each worker enter once more. -/
theorem workerRemaining_notifyReady : ∑ w ∈ Finset.range totalThreads.toNat, s.notifyReady.workerRemaining totalThreads w ≤
    (∑ w ∈ Finset.range totalThreads.toNat, s.workerRemaining totalThreads w) + 2 * totalThreads.toNat := by
  have hsum : 2 * totalThreads.toNat = ∑ _w ∈ Finset.range totalThreads.toNat, 2 := by
    rw [Finset.sum_const_nat fun _ _ => rfl, Finset.card_range, Nat.mul_comm]
  rw [hsum]
  refine sum_le_add fun w _ => ?_
  rcases hw : s.workers w with ⟨pc, o⟩
  cases pc <;>
    simp only [State.workerRemaining, State.notifyReady, hw, Worker.wake, WorkerPc.remaining, Worker.Stale,
      WorkerPc.isStarted] <;>
    omega

/-- A worker that moves and changes nothing the others go by. -/
theorem remaining_lt_of_worker {w : Nat} (hw : w < totalThreads.toNat) (hsame : ∀ v, v ≠ w → s'.workers v = s.workers v)
    (hgen : s'.generation = s.generation) (hjob : s'.job = s.job) (hsub : s'.submitters = s.submitters)
    (hmain : s'.main = s.main) (hstarted : s'.started = s.started)
    (hlt : s'.workerRemaining totalThreads w < s.workerRemaining totalThreads w) :
    s'.remaining totalThreads n < s.remaining totalThreads n := by
  have hsum := workerRemaining_update hw hsame hgen hjob
  simp only [State.remaining, hsub, hmain, hstarted]
  omega

/-- Nothing the workers go by has changed. -/
theorem workerRemaining_same (hworkers : s'.workers = s.workers) (hgen : s'.generation = s.generation) (hjob : s'.job = s.job) :
    ∑ w ∈ Finset.range totalThreads.toNat, s'.workerRemaining totalThreads w ≤
      (∑ w ∈ Finset.range totalThreads.toNat, s.workerRemaining totalThreads w) + 0 := by
  simp only [State.workerRemaining, hworkers, hgen, hjob]
  exact Nat.le_refl _

/-- A publication makes every worker stale. -/
theorem workerRemaining_publish {job : Job} (hworkers : s'.workers = s.workers) (hjob : s'.job = job) :
    ∑ w ∈ Finset.range totalThreads.toNat, s'.workerRemaining totalThreads w ≤
      (∑ w ∈ Finset.range totalThreads.toNat, s.workerRemaining totalThreads w) + roundRemaining totalThreads job := by
  refine sum_le_add fun w _ => ?_
  simp only [State.workerRemaining, hworkers, hjob]
  split <;> split <;> omega

/-- The job a worker would find is taken away. -/
theorem workerRemaining_collect (hworkers : s'.workers = s.workers) (hgen : s'.generation = s.generation)
    (hjob : s'.job = .empty) : ∑ w ∈ Finset.range totalThreads.toNat, s'.workerRemaining totalThreads w ≤
      (∑ w ∈ Finset.range totalThreads.toNat, s.workerRemaining totalThreads w) + 0 := by
  refine Finset.sum_le_sum fun w _ => ?_
  simp only [State.workerRemaining, hworkers, hgen, hjob, shardCount_empty]
  split <;> omega

/-- A submitter that moves and sets off at most `d` steps of the workers. -/
theorem remaining_lt_of_submitter {i d : Nat} (hi : i < n) (hsame : ∀ j, j ≠ i → s'.submitters j = s.submitters j)
    (hmain : s'.main = s.main) (hstarted : s'.started = s.started)
    (hworkers : ∑ w ∈ Finset.range totalThreads.toNat, s'.workerRemaining totalThreads w ≤
      (∑ w ∈ Finset.range totalThreads.toNat, s.workerRemaining totalThreads w) + d)
    (hlt : (s'.submitters i).remaining totalThreads + d < (s.submitters i).remaining totalThreads) :
    s'.remaining totalThreads n < s.remaining totalThreads n := by
  have hsum := submitterRemaining_update totalThreads hi hsame
  simp only [State.remaining, hmain, hstarted]
  omega

/-- The owner's thread moves and sets off at most `d` steps of the workers. -/
theorem remaining_lt_of_main {d : Nat} (hsub : s'.submitters = s.submitters)
    (hworkers : ∑ w ∈ Finset.range totalThreads.toNat, s'.workerRemaining totalThreads w ≤
      (∑ w ∈ Finset.range totalThreads.toNat, s.workerRemaining totalThreads w) + d)
    (hlt : s'.main.remaining totalThreads s'.started + d < s.main.remaining totalThreads s.started) :
    s'.remaining totalThreads n < s.remaining totalThreads n := by
  simp only [State.remaining, hsub]
  omega

/-! ## Steps -/

section

variable [Scalar α] {throws : Throws} {l : Option Event}

theorem WorkerStep.remaining_lt {w : Nat} (hw : w < totalThreads.toNat) (hcallers : s.CallersBelow n)
    (hs : WorkerStep totalThreads throws w s l s') : s'.remaining totalThreads n < s.remaining totalThreads n := by
  have hsame : ∀ {pc : WorkerPc} {o : UInt64} (v : Nat), v ≠ w → (s.setWorker w pc o).workers v = s.workers v :=
    fun v hv => State.setWorker_of_ne hv
  cases hs with
  | lock hpc _ | wait hpc _ | exit hpc _ | write hpc _ | finish hpc _ | throw hpc _ | lockDone hpc _ | record hpc
  | notifyNone hpc _ =>
    refine remaining_lt_of_worker hw hsame rfl rfl rfl rfl rfl ?_
    simp only [State.workerRemaining, State.setWorker, Function.update_self, hpc, WorkerPc.remaining, Worker.Stale,
      WorkerPc.isStarted]
    omega
  | take hpc hstop hgen =>
    refine remaining_lt_of_worker hw hsame rfl rfl rfl rfl rfl ?_
    simp [State.workerRemaining, State.setWorker, hpc, WorkerPc.remaining, Worker.Stale, WorkerPc.isStarted, hgen]
  | @notifyOne o i hpc hi =>
    obtain ⟨e, hi⟩ := hi
    have hlt : i < n := hcallers.lt (by rw [hi]; simp)
    obtain ⟨s', hs'⟩ : ∃ s', s' = (s.setWorker w .entering o).notifyDone i := ⟨_, rfl⟩
    have hworker : s'.workers w = ⟨.entering, o⟩ := by rw [hs']; exact State.setWorker_self ..
    have hcaller : s'.submitters i = .joining e := by
      rw [hs']
      simp [State.notifyDone, State.setWorker, hi, Submitter.wake]
    have hgen : s'.generation = s.generation := by rw [hs']; rfl
    have hjob : s'.job = s.job := by rw [hs']; rfl
    have hmain : s'.main = s.main ∧ s'.started = s.started := by rw [hs']; exact ⟨rfl, rfl⟩
    -- the worker has two steps left until it sleeps, the submitter two more than while it was asleep
    have hothers : ∀ j, j ≠ i → s'.submitters j = s.submitters j := fun j hj => by
      rw [hs']
      exact State.setSubmitter_of_ne hj
    have hrest : ∀ v, v ≠ w → s'.workers v = s.workers v := by rw [hs']; exact hsame
    have hworkers := workerRemaining_update hw hrest hgen hjob
    have hsubmitters := submitterRemaining_update totalThreads hlt hothers
    have hafter : (s'.submitters i).remaining totalThreads = 3 := by rw [hcaller]; rfl
    have hbefore : (s.submitters i).remaining totalThreads = 1 := by rw [hi]; rfl
    have hdrop : s'.workerRemaining totalThreads w + 3 = s.workerRemaining totalThreads w := by
      simp only [State.workerRemaining, hworker, hpc, hgen, hjob, WorkerPc.remaining, Worker.Stale, WorkerPc.isStarted]
      omega
    rw [← hs']
    simp only [State.remaining, hmain]
    omega

theorem SubmitterStep.remaining_lt {i : Nat} (hcallers : s.CallersBelow n)
    (hs : SubmitterStep totalThreads throws i s l s') : s'.remaining totalThreads n < s.remaining totalThreads n := by
  have hi : i < n := by
    refine hcallers.lt fun hout => ?_
    cases hs <;> simp_all
  have hsame : ∀ {pc : Submitter} (j : Nat), j ≠ i → (s.setSubmitter i pc).submitters j = s.submitters j :=
    fun j hj => State.setSubmitter_of_ne hj
  cases hs with
  | acquire hpc _ | fallback hpc _ | scalarWrite hpc _ | scalarReturn hpc _ | lock hpc _ _ | begin hpc | write hpc _
  | finish hpc _ | throw hpc _ | lockDone hpc _ | wait hpc _ | «return» hpc =>
    refine remaining_lt_of_submitter hi hsame rfl rfl (workerRemaining_same rfl rfl rfl) ?_
    simp only [State.setSubmitter, Function.update_self, hpc, Submitter.remaining]
    omega
  | publish hpc =>
    refine remaining_lt_of_submitter hi hsame rfl rfl (workerRemaining_publish rfl rfl) ?_
    simp only [State.setSubmitter, Function.update_self, hpc, Submitter.remaining]
    omega
  | @notifyAll job hpc =>
    refine remaining_lt_of_submitter hi hsame rfl rfl (workerRemaining_notifyReady (s := s.setSubmitter i (.notified job))) ?_
    simp only [State.notifyReady, State.setSubmitter, Function.update_self, hpc, Submitter.remaining]
    omega
  | collect hpc _ =>
    refine remaining_lt_of_submitter hi hsame rfl rfl (workerRemaining_collect rfl rfl rfl) ?_
    simp only [State.setSubmitter, Function.update_self, hpc, Submitter.remaining]
    omega

omit [Scalar α] in
theorem MainStep.remaining_lt {a : Serial α} (htracks : Tracks totalThreads s a) (hs : MainStep totalThreads s l s') :
    s'.remaining totalThreads n < s.remaining totalThreads n := by
  have hlt := htracks.started_lt
  cases hs with
  | start hpc hmore =>
    have hunstarted : (s.workers (s.started + 1)).pc = .unstarted := (htracks.unstarted _).2 (by omega)
    have hgen := (htracks.constructing hpc).1
    have hrest : ∀ v, v ≠ s.started + 1 →
        ({ s.setWorker (s.started + 1) .entering 0 with started := s.started + 1 } : State α).workers v = s.workers v :=
      fun v hv => State.setWorker_of_ne hv
    have hsum := workerRemaining_update hmore hrest rfl rfl
    have hbefore : s.workerRemaining totalThreads (s.started + 1) = 3 := by
      simp [State.workerRemaining, Worker.Stale, hunstarted, WorkerPc.remaining, WorkerPc.isStarted]
    have hafter : ({ s.setWorker (s.started + 1) .entering 0 with started := s.started + 1 } : State α).workerRemaining
        totalThreads (s.started + 1) = 2 := by
      simp [State.workerRemaining, State.setWorker, Worker.Stale, hgen, WorkerPc.remaining]
    rw [hbefore, hafter] at hsum
    simp only [State.remaining, State.setWorker, hpc, Main.remaining] at hsum ⊢
    omega
  | fail hpc _ | complete hpc _ | lock hpc _ | set hpc | join hpc _ _ | joined hpc _ =>
    refine remaining_lt_of_main rfl (workerRemaining_same rfl rfl rfl) ?_
    simp only [hpc, Main.remaining]
    omega
  | notifyAll hpc =>
    refine remaining_lt_of_main rfl (workerRemaining_notifyReady (s := s)) ?_
    simp only [State.notifyReady, hpc, Main.remaining]
    omega

theorem Step.callersBelow (hcallers : s.CallersBelow n) (hs : Step totalThreads throws s l s') : s'.CallersBelow n := by
  intro j hj
  cases hs with
  | worker w hs =>
    cases hs with
    | @notifyOne o i hpc hi =>
      obtain ⟨e, hi⟩ := hi
      have hlt : i < n := hcallers.lt (by rw [hi]; simp)
      exact (State.setSubmitter_of_ne (by omega)).trans (hcallers j hj)
    | _ => exact hcallers j hj
  | submitter i hs =>
    have hlt : i < n := by
      refine hcallers.lt fun hout => ?_
      cases hs <;> simp_all
    have hne : j ≠ i := by omega
    cases hs <;> exact (State.setSubmitter_of_ne hne).trans (hcallers j hj)
  | main hs => cases hs <;> exact hcallers j hj

/-- **Every step of the threads lowers what remains.** -/
theorem Step.remaining_lt {a : Serial α} (htracks : Tracks totalThreads s a) (hcallers : s.CallersBelow n)
    (hs : Step totalThreads throws s l s') : s'.remaining totalThreads n < s.remaining totalThreads n := by
  cases hs with
  | worker w hs =>
    have hstarted : (s.workers w).pc ≠ .unstarted := by cases hs <;> simp_all
    obtain ⟨-, hle⟩ := htracks.worker_range hstarted
    exact hs.remaining_lt (Nat.lt_of_le_of_lt hle htracks.started_lt) hcallers
  | submitter i hs => exact hs.remaining_lt hcallers
  | main hs => exact hs.remaining_lt htracks

/-! ## Runs -/

variable (totalThreads throws) in
/-- The executor's threads, while no caller moves. -/
def threads : System (State α) Event where
  step := Step totalThreads throws

/-- At most one more has called. -/
theorem callersBelow_step (hcallers : s.CallersBelow n) (hs : (system totalThreads throws).step s l s') :
    ∃ n, s'.CallersBelow n := by
  rcases hs with hs | ⟨-, hs⟩
  · exact ⟨n, hs.callersBelow hcallers⟩
  · cases hs with
    | @call i job _ _ _ =>
      refine ⟨max n (i + 1), fun j hj => ?_⟩
      exact (State.setSubmitter_of_ne (by omega)).trans (hcallers j (by omega))
    | destroy => exact ⟨n, hcallers⟩

theorem exists_callersBelow {memory : Memory α} {t : List Event} (h : Run (system totalThreads throws) (init memory) t s) :
    ∃ n, s.CallersBelow n := by
  induction h with
  | refl => exact ⟨0, fun _ _ => rfl⟩
  | step _ hl ih =>
    obtain ⟨n, hcallers⟩ := ih
    exact callersBelow_step hcallers hl

/-- The threads' steps are steps of the executor with its callers. -/
theorem exists_run_of_steps {steps : Nat} (h : Steps (threads totalThreads throws) s steps s') :
    ∃ t, Run (system totalThreads throws) s t s' := by
  induction h with
  | refl => exact ⟨[], .refl⟩
  | step _ hl ih =>
    obtain ⟨t, hrun⟩ := ih
    exact ⟨_, hrun.step (.inl hl)⟩

/-- The threads lower what remains, as long as they are left to themselves. -/
theorem threads_lower (s : State α) (l : Option Event) (s' : State α) (h : s.CallersBelow n ∧ ∃ a, Tracks totalThreads s a)
    (hs : (threads totalThreads throws).step s l s') :
    (s'.CallersBelow n ∧ ∃ a, Tracks totalThreads s' a) ∧ s'.remaining totalThreads n < s.remaining totalThreads n := by
  obtain ⟨hcallers, a, htracks⟩ := h
  obtain ⟨a', -, htracks'⟩ := htracks.step (.inl hs)
  exact ⟨⟨hs.callersBelow hcallers, a', htracks'⟩, hs.remaining_lt htracks hcallers⟩

/-- Where nobody moves, every call has returned and every worker sleeps or has left. -/
theorem stuck_of_tracks {memory : Memory α} {t : List Event} {a : Serial α} (hpos : 0 < totalThreads.toNat)
    (hserial : Run (serial totalThreads throws) ⟨memory, .idle⟩ t a) (htracks : Tracks totalThreads s a) (hawake : Awake s)
    (hstuck : Stuck (threads totalThreads throws) s) :
    (∀ i, s.submitters i = .outside) ∧
      ((s.main = .ready ∧ ∀ w, 0 < w → w ≤ s.started → s.workReady w) ∨
        (s.main = .stopped ∧ ∀ w, 0 < w → w ≤ s.started → (s.workers w).pc = .exited)) := by
  obtain ⟨blocks, current, -, -, base, hcurrent, -⟩ := serial_history hpos hserial
  have hnone : ¬Enabled totalThreads throws s := by
    rintro ⟨l, s', hl⟩
    exact hstuck l s' hl
  have hmain : s.main = .ready ∨ s.main = .stopped := by
    by_contra hno
    rw [not_or] at hno
    exact hnone (htracks.main_enabled hcurrent hawake hno.1 hno.2)
  refine ⟨fun i => ?_, hmain.imp (fun hready => ⟨hready, fun w hw hle => ?_⟩) fun hstopped => ⟨hstopped, fun w hw hle => ?_⟩⟩
  · by_contra hi
    exact hnone (htracks.submitter_enabled hcurrent hawake hi)
  · have hstarted : (s.workers w).pc ≠ .unstarted := fun hpc => (htracks.unstarted w).1 hpc ⟨hw, hle⟩
    by_contra hasleep
    refine hnone (htracks.worker_enabled hcurrent w hstarted hasleep fun hexited => ?_)
    have hok := htracks.workers w
    simp only [WorkerOk, hexited] at hok
    rw [(htracks.ready hready).2] at hok
    exact Bool.false_ne_true hok
  · exact hawake.joined w hw hle (by rw [hstopped]; trivial)

theorem stuck_of_reachable {memory : Memory α} {t : List Event} (hpos : 0 < totalThreads.toNat)
    (h : Run (system totalThreads throws) (init memory) t s) (hstuck : Stuck (threads totalThreads throws) s) :
    (∀ i, s.submitters i = .outside) ∧
      ((s.main = .ready ∧ ∀ w, 0 < w → w ≤ s.started → s.workReady w) ∨
        (s.main = .stopped ∧ ∀ w, 0 < w → w ≤ s.started → (s.workers w).pc = .exited)) := by
  obtain ⟨a, hserial, htracks, hawake⟩ := run_awake hpos h
  exact stuck_of_tracks hpos hserial htracks hawake hstuck

/-- **Every call returns.** From every state a run reaches, whatever the shards throw and however the threads are
scheduled, they make a bounded number of steps before a caller has to move again; and however they are scheduled,
when none of them can move every call has returned, `stop_workers` and the constructor too, and every worker is
asleep in `work_ready_` or, after `stop_workers`, has left its loop. -/
theorem calls_return (hpos : 0 < totalThreads.toNat) {memory : Memory α} {t : List Event}
    (h : Run (system totalThreads throws) (init memory) t s) :
    (∃ bound, ∀ steps s', Steps (threads totalThreads throws) s steps s' → steps ≤ bound) ∧
    (∀ steps s', Steps (threads totalThreads throws) s steps s' →
      ∃ more s'', Steps (threads totalThreads throws) s' more s'' ∧ Stuck (threads totalThreads throws) s'') ∧
    ∀ steps s', Steps (threads totalThreads throws) s steps s' → Stuck (threads totalThreads throws) s' →
      (∀ i, s'.submitters i = .outside) ∧
        ((s'.main = .ready ∧ ∀ w, 0 < w → w ≤ s'.started → s'.workReady w) ∨
          (s'.main = .stopped ∧ ∀ w, 0 < w → w ≤ s'.started → (s'.workers w).pc = .exited)) := by
  obtain ⟨n, hcallers⟩ := exists_callersBelow h
  obtain ⟨a, -, htracks, -⟩ := run_awake hpos h
  refine ⟨⟨s.remaining totalThreads n, fun steps s' hsteps => ?_⟩, fun steps s' hsteps => ?_, fun steps s' hsteps hstuck => ?_⟩
  · have hle := (hsteps.le_measure threads_lower ⟨hcallers, a, htracks⟩).2
    omega
  · exact exists_stuck threads_lower (hsteps.le_measure threads_lower ⟨hcallers, a, htracks⟩).1
  · obtain ⟨t', hrun⟩ := exists_run_of_steps hsteps
    exact stuck_of_reachable hpos (h.append hrun) hstuck

/-- Two threads and a call of the smallest job they share. -/
theorem wide_call_run (throws : Throws) : ∃ s : State Int, Run (system 2 throws) (init fun _ => 0) [] s ∧
    s.submitters 0 = .entering wideJob := by
  have hstart : Run (system 2 throws) (init fun _ => (0 : Int)) [] _ := Run.refl.silent (system_main (.start rfl (by decide)))
  have hready := hstart.silent (system_main (.complete rfl (by decide)))
  have hcheck : wideJob.check = .ok () := Job.check_ok_iff.2 ⟨rfl, rfl, rfl, .inl rfl⟩
  exact ⟨_, hready.silent (.inr ⟨rfl, .call (i := 0) rfl rfl hcheck⟩), rfl⟩

theorem calls_return_wide : ∃ s s' : State Int, s.submitters 0 = .entering wideJob ∧
    (∃ steps, Steps (threads 2 (shardThrows Int 2)) s steps s') ∧ s'.submitters 0 = .outside := by
  obtain ⟨s, hrun, hcall⟩ := wide_call_run (shardThrows Int 2)
  obtain ⟨-, hends, hreturned⟩ := calls_return (by decide) hrun
  obtain ⟨steps, s', hsteps, hstuck⟩ := hends 0 s .refl
  exact ⟨s, s', hcall, ⟨steps, hsteps⟩, (hreturned steps s' hsteps hstuck).1 0⟩

end

end Gpt2Runtime.LinearExecutor
