import Gpt2Runtime.ExecutorRealization
/-
# No deadlock, no lost wake-up

A notification is issued after its mutex is released, so between the change of a predicate and the
notification a waiter is asleep although its predicate holds. `Awake` says that this is all: whoever is asleep
while the predicate holds has a thread that is about to notify. With the count of recorded workers it gives
every waiter a thread it waits for, and that thread an enabled step.

| who cannot go on | whom it waits for |
| --- | --- |
| a thread before `state_mutex_`   | the owner (`Tracks.owner_enabled`) |
| a submitter before `submit_mutex_` | the submission that has it (`Tracks.holder_enabled`) |
| a submitter in `work_done_`      | a worker that has not recorded, or is about to notify |
| `stop_workers` joining a worker  | that worker, which is not asleep |
-/

namespace Gpt2Runtime.LinearExecutor

open Loop Flat Word Kernels Lts

variable {α : Type}

/-! ## The wake-up invariant -/

/-- The predicate of `work_ready_`, as worker `w` tests it. -/
def State.Ready (s : State α) (w : Nat) : Prop := s.stopping = true ∨ s.generation ≠ (s.workers w).observedGeneration

/-- The predicate of `work_done_`. -/
def State.Done (s : State α) : Prop := s.completed = UInt64.ofNat s.started

/-- `stopping_` has been set. -/
def Main.Stopping : Main → Prop
  | .notifying => True
  | .joining _ => True
  | .stopped => True
  | _ => False

/-- `stop_workers` has joined worker `w`. -/
def Main.Joined (w : Nat) : Main → Prop
  | .joining w' => w < w'
  | .stopped => True
  | _ => False

structure Awake (s : State α) : Prop where
  ready : ∀ w, s.workReady w → s.Ready w → (∃ i job, s.submitters i = .notifying job) ∨ s.main = .notifying
  done : ∀ i, s.workDone i → s.Done → ∃ w, (s.workers w).pc = .notifying
  stopping : s.main.Stopping → s.stopping = true
  joining : ∀ w, s.main = .joining w → 0 < w
  joined : ∀ w, 0 < w → w ≤ s.started → s.main.Joined w → (s.workers w).pc = .exited

theorem awake_init (memory : Memory α) : Awake (init memory) where
  ready _ h := nomatch h
  done _ h := nomatch h
  stopping h := h.elim
  joining _ h := nomatch h
  joined _ _ _ h := h.elim

/-- Only the submission that has `submit_mutex_` waits for completions. -/
theorem Tracks.holder_of_workDone {totalThreads : UInt64} {s : State α} {a : Serial α} (h : Tracks totalThreads s a) {i : Nat}
    (hi : s.workDone i) : a.phase.holder = some i := by
  obtain ⟨e, he⟩ := hi
  have hok := h.submitters i
  rw [he] at hok
  obtain ⟨r, hphase, rfl, -⟩ := hok
  rw [hphase]
  rfl

namespace Awake

variable {s : State α}

/-- A worker that neither notifies nor has left moves. -/
theorem moveWorker (h : Awake s) {w : Nat} {pc : WorkerPc} {o : UInt64} {mutex : Option Thread} {memory : Memory α}
    {completed : UInt64} {error : Option Exc} (hnotifying : (s.workers w).pc ≠ .notifying) (hexited : (s.workers w).pc ≠ .exited)
    (hsleep : pc = .asleep → ¬(s.stopping = true ∨ s.generation ≠ o))
    (hcompleted : completed = s.completed ∨ pc = .notifying) :
    Awake { s.setWorker w pc o with stateMutex := mutex, memory, completed, workerError := error } := by
  refine ⟨fun w' hasleep hready => ?_, fun i hi hdone => ?_, h.stopping, h.joining, fun w' hpos hle hjoined => ?_⟩
  · by_cases heq : w' = w
    · subst heq
      simp only [State.workReady, State.Ready, State.setWorker_self] at hasleep hready
      exact absurd hready (hsleep hasleep)
    · simp only [State.workReady, State.Ready, State.setWorker_of_ne heq] at hasleep hready
      exact h.ready w' hasleep hready
  · rcases hcompleted with rfl | rfl
    · obtain ⟨w', hw'⟩ := h.done i hi hdone
      refine ⟨w', ?_⟩
      have hne : w' ≠ w := by
        rintro rfl
        exact hnotifying hw'
      simpa only [State.setWorker_of_ne hne] using hw'
    · exact ⟨w, by simp only [State.setWorker_self]⟩
  · have hexit := h.joined w' hpos hle hjoined
    have hne : w' ≠ w := by
      rintro rfl
      exact hexited hexit
    simpa only [State.setWorker_of_ne hne] using hexit

/-- A worker that has notified goes back to its loop: nobody is left in `work_done_`. -/
theorem notified (h : Awake s) {w : Nat} {o : UInt64} {submitters : Nat → Submitter} (hpc : (s.workers w).pc = .notifying)
    (hnone : ∀ i e, submitters i ≠ .asleep e) (hkeep : ∀ i job, s.submitters i = .notifying job → submitters i = .notifying job) :
    Awake { s.setWorker w .entering o with submitters } := by
  refine ⟨fun w' hasleep hready => ?_, fun i hi _ => ?_, h.stopping, h.joining, fun w' hpos hle hjoined => ?_⟩
  · by_cases heq : w' = w
    · subst heq
      simp only [State.workReady, State.setWorker_self] at hasleep
      cases hasleep
    · simp only [State.workReady, State.Ready, State.setWorker_of_ne heq] at hasleep hready
      refine (h.ready w' hasleep hready).imp ?_ id
      rintro ⟨i, job, hi⟩
      exact ⟨i, job, hkeep i job hi⟩
  · obtain ⟨e, he⟩ := hi
    exact absurd he (hnone i e)
  · have hexit := h.joined w' hpos hle hjoined
    have hne : w' ≠ w := by
      rintro rfl
      rw [hpc] at hexit
      cases hexit
    simpa only [State.setWorker_of_ne hne] using hexit

/-- A submitter that does not notify moves, and does not fall asleep on a predicate that holds. -/
theorem moveSubmitter (h : Awake s) {i : Nat} {pc : Submitter} {mutex : Option Thread} {submitMutex : Option Nat}
    {memory : Memory α} {job : Job} (hnotifying : ∀ job, s.submitters i ≠ .notifying job)
    (hsleep : ∀ e, pc = .asleep e → ¬s.Done) :
    Awake { s.setSubmitter i pc with stateMutex := mutex, submitMutex, memory, job } := by
  refine ⟨fun w hasleep hready => ?_, fun i' hi' hdone => ?_, h.stopping, h.joining, h.joined⟩
  · refine (h.ready w hasleep hready).imp ?_ id
    rintro ⟨i', job', hi'⟩
    have hne : i' ≠ i := by
      rintro rfl
      exact hnotifying job' hi'
    exact ⟨i', job', by simpa only [State.setSubmitter_of_ne hne] using hi'⟩
  · obtain ⟨e, he⟩ := hi'
    by_cases heq : i' = i
    · subst heq
      simp only [State.setSubmitter_self] at he
      exact absurd hdone (hsleep e he)
    · simp only [State.setSubmitter_of_ne heq] at he
      exact h.done i' ⟨e, he⟩ hdone

/-- The constructing or destroying thread moves. -/
theorem moveMain (h : Awake s) {pc : Main} {mutex : Option Thread} (hpc : s.main ≠ .notifying)
    (hstopping : pc.Stopping → s.stopping = true) (hjoining : ∀ w, pc = .joining w → 0 < w)
    (hjoined : ∀ w, 0 < w → w ≤ s.started → pc.Joined w → (s.workers w).pc = .exited) :
    Awake { s with main := pc, stateMutex := mutex } :=
  ⟨fun w hasleep hready => .inl ((h.ready w hasleep hready).resolve_right hpc), h.done, hstopping, hjoining, hjoined⟩

/-- After `notify_all` no worker is asleep. -/
theorem not_workReady (w : Nat) : ¬s.notifyReady.workReady w := by
  intro hasleep
  simp only [State.workReady, State.notifyReady, Worker.wake] at hasleep
  split at hasleep
  · cases hasleep
  · exact absurd hasleep ‹_›

theorem notifyReady_exited {w : Nat} (h : (s.workers w).pc = .exited) : (s.notifyReady.workers w).pc = .exited := by
  simp only [State.notifyReady, Worker.wake, h]

theorem notifyReady_notifying {w : Nat} (h : (s.workers w).pc = .notifying) : (s.notifyReady.workers w).pc = .notifying := by
  simp only [State.notifyReady, Worker.wake, h]

end Awake

/-! ## Every step keeps it -/

section

variable [Scalar α] {totalThreads : UInt64} {throws : Throws} {s s' : State α} {a : Serial α} {l : Option Event}

theorem Awake.worker_step (h : Awake s) (htracks : Tracks totalThreads s a) {w : Nat}
    (hs : WorkerStep totalThreads throws w s l s') : Awake s' := by
  cases hs with
  | lock hpc _ | exit hpc _ | take hpc _ _ | write hpc _ | finish hpc _ | throw hpc _ | lockDone hpc _ =>
    exact h.moveWorker (by simp [hpc]) (by simp [hpc]) (by simp) (.inl rfl)
  | wait hpc hpred => exact h.moveWorker (by simp [hpc]) (by simp [hpc]) (fun _ => hpred) (.inl rfl)
  | record hpc => exact h.moveWorker (by simp [hpc]) (by simp [hpc]) (by simp) (.inr rfl)
  | @notifyOne _ i hpc hi =>
    -- the submitter woken is the only one that can have been asleep
    refine h.notified (by rw [hpc]) (fun i' e he => ?_) fun i' job hi' => ?_
    · by_cases heq : i' = i
      · subst heq
        obtain ⟨e', he'⟩ := hi
        simp only [State.setWorker, Function.update_self, he', Submitter.wake] at he
        cases he
      · have hasleep : s.workDone i' := ⟨e, by simpa only [State.setWorker, Function.update_of_ne heq] using he⟩
        have hholder := htracks.holder_of_workDone hi
        rw [htracks.holder_of_workDone hasleep] at hholder
        exact heq (Option.some.inj hholder)
    · have hne : i' ≠ i := by
        rintro rfl
        obtain ⟨e, he⟩ := hi
        rw [he] at hi'
        cases hi'
      simpa only [State.setWorker, Function.update_of_ne hne] using hi'
  | notifyNone hpc hi =>
    exact h.notified (by rw [hpc]) (fun i e he => hi i ⟨e, he⟩) fun _ _ => id

theorem Awake.submitter_step (h : Awake s) (htracks : Tracks totalThreads s a) {i : Nat}
    (hs : SubmitterStep totalThreads throws i s l s') : Awake s' := by
  cases hs with
  | acquire hpc _ | fallback hpc _ | scalarWrite hpc _ | scalarReturn hpc _ | lock hpc _ _ | begin hpc | write hpc _
  | finish hpc _ | throw hpc _ | lockDone hpc _ | collect hpc _ | «return» hpc =>
    exact h.moveSubmitter (by simp [hpc]) (by simp)
  | wait hpc hpred => exact h.moveSubmitter (by simp [hpc]) (fun _ _ => hpred)
  | @publish job hpc =>
    -- every worker's predicate may hold from here on: the submitter is about to notify
    refine ⟨fun w _ _ => .inl ⟨i, job, by simp only [State.setSubmitter_self]⟩, fun i' hi' _ => ?_, h.stopping, h.joining,
      h.joined⟩
    obtain ⟨e, he⟩ := hi'
    have hok := htracks.submitters i
    rw [hpc] at hok
    by_cases heq : i' = i
    · subst heq
      simp only [State.setSubmitter_self] at he
      cases he
    · have hasleep : s.workDone i' := ⟨e, by simpa only [State.setSubmitter_of_ne heq] using he⟩
      have hholder := htracks.holder_of_workDone hasleep
      rw [hok.1] at hholder
      exact absurd (Option.some.inj hholder).symm heq
  | notifyAll hpc =>
    refine ⟨fun w hasleep _ => absurd hasleep (not_workReady w), fun i' hi' hdone => ?_, h.stopping, h.joining,
      fun w hpos hle hjoined => notifyReady_exited (h.joined w hpos hle hjoined)⟩
    obtain ⟨e, he⟩ := hi'
    have hne : i' ≠ i := by
      rintro rfl
      simp only [State.notifyReady, State.setSubmitter_self] at he
      cases he
    obtain ⟨w, hw⟩ := h.done i' ⟨e, by simpa only [State.notifyReady, State.setSubmitter_of_ne hne] using he⟩ hdone
    exact ⟨w, notifyReady_notifying hw⟩

omit [Scalar α] in
theorem Awake.main_step (h : Awake s) (htracks : Tracks totalThreads s a) (hs : MainStep totalThreads s l s') :
    Awake s' := by
  cases hs with
  | start hpc _ =>
    have hout := htracks.out_of_main (by rw [hpc]; simp)
    refine ⟨fun w hasleep hready => ?_, fun i hi _ => ?_, h.stopping, h.joining, fun w _ _ hjoined => ?_⟩
    · by_cases heq : w = s.started + 1
      · subst heq
        simp only [State.workReady, State.setWorker_self] at hasleep
        cases hasleep
      · simp only [State.workReady, State.Ready, State.setWorker_of_ne heq] at hasleep hready
        exact h.ready w hasleep hready
    · obtain ⟨e, he⟩ := hi
      cases (hout i).symm.trans he
    · have hjoined' : s.main.Joined w := hjoined
      rw [hpc] at hjoined'
      exact hjoined'.elim
  | fail hpc _ | complete hpc _ | lock hpc _ =>
    exact h.moveMain (by simp [hpc]) (fun h' => h'.elim) (by simp) (fun _ _ _ h' => h'.elim)
  | set hpc =>
    exact ⟨fun _ _ _ => .inr rfl, h.done, fun _ => rfl, fun _ h' => (nomatch h'), fun _ _ _ h' => h'.elim⟩
  | notifyAll hpc =>
    refine ⟨fun w hasleep _ => absurd hasleep (not_workReady w), fun i hi hdone => ?_, fun _ => ?_, fun w hw => ?_,
      fun w hpos _ hjoined => ?_⟩
    · obtain ⟨w, hw⟩ := h.done i hi hdone
      exact ⟨w, notifyReady_notifying hw⟩
    · exact h.stopping (by rw [hpc]; trivial)
    · cases hw
      exact Nat.one_pos
    · have hlt : w < 1 := hjoined
      omega
  | @join w hpc hle hexit =>
    refine h.moveMain (by simp [hpc]) (fun _ => h.stopping (by rw [hpc]; trivial)) (fun w' hw' => ?_)
      fun w' hpos hle' hjoined => ?_
    · cases hw'
      exact Nat.succ_pos w
    · have hlt : w' < w + 1 := hjoined
      by_cases heq : w' = w
      · rwa [heq]
      · exact h.joined w' hpos hle' (by rw [hpc]; exact show w' < w by omega)
  | @joined w hpc hlt =>
    refine h.moveMain (by simp [hpc]) (fun _ => h.stopping (by rw [hpc]; trivial)) (by simp)
      fun w' hpos hle _ => ?_
    exact h.joined w' hpos hle (by rw [hpc]; exact show w' < w by omega)

omit [Scalar α] in
theorem Awake.environment (h : Awake s) (hs : Environment s s') : Awake s' := by
  cases hs with
  | call hready hpc _ => exact h.moveSubmitter (by simp [hpc]) (by simp)
  | destroy hready _ =>
    exact h.moveMain (by simp [hready]) (fun h' => h'.elim) (by simp) (fun _ _ _ h' => h'.elim)

theorem Awake.step (h : Awake s) (htracks : Tracks totalThreads s a) (hs : (system totalThreads throws).step s l s') :
    Awake s' := by
  rcases hs with hs | ⟨-, hs⟩
  · cases hs with
    | worker w hs => exact h.worker_step htracks hs
    | submitter i hs => exact h.submitter_step htracks hs
    | main hs => exact h.main_step htracks hs
  · exact h.environment hs

/-! ## Who has an enabled step -/

variable (totalThreads throws) in
def Enabled (s : State α) : Prop := ∃ l s', Step totalThreads throws s l s'

/-- A shard has written no more channels than it has. -/
theorem Current.written_le {base m : Memory α} {current : List Event} {r : Round}
    (h : Current totalThreads throws base current ⟨m, .round r⟩) (shard : Nat) :
    (r.shards shard).written ≤ shardCount totalThreads r.job shard := by
  cases h with
  | round _ _ hwork _ _ =>
    have hlegal := hwork.legal shard
    cases hs : r.shards shard with
    | pending => exact Nat.zero_le _
    | running c => rwa [hs] at hlegal
    | ended c error | recorded c error =>
      rw [hs] at hlegal
      exact hlegal.1

section

variable (htracks : Tracks totalThreads s a)

include htracks

/-- The owner of `state_mutex_` goes on. -/
theorem Tracks.owner_enabled {t : Thread} (ht : s.stateMutex = some t) : Enabled totalThreads throws s := by
  have hin : s.inside t := (htracks.stateMutex t).2 ht
  cases t with
  | worker w =>
    rcases hw : s.workers w with ⟨pc, o⟩
    simp only [State.inside, hw] at hin
    cases pc with
    | testing =>
      by_cases hstop : s.stopping = true
      · exact ⟨_, _, .worker w (.exit hw hstop)⟩
      · by_cases hgen : s.generation = o
        · exact ⟨_, _, .worker w (.wait hw fun h' => h'.elim hstop fun hne => hne hgen)⟩
        · exact ⟨_, _, .worker w (.take hw (Bool.eq_false_iff.2 hstop) hgen)⟩
    | recording error => exact ⟨_, _, .worker w (.record hw)⟩
    | _ => exact hin.elim
  | submitter i =>
    simp only [State.inside] at hin
    cases hi : s.submitters i with
    | publishing job => exact ⟨_, _, .submitter i (.publish hi)⟩
    | testing e =>
      by_cases hdone : s.completed = UInt64.ofNat s.started
      · exact ⟨_, _, .submitter i (.collect hi hdone)⟩
      · exact ⟨_, _, .submitter i (.wait hi hdone)⟩
    | _ =>
      rw [hi] at hin
      exact hin.elim
  | main =>
    simp only [State.inside] at hin
    cases hmain : s.main with
    | setting => exact ⟨_, _, .main (.set hmain)⟩
    | _ =>
      rw [hmain] at hin
      exact hin.elim

/-- Whoever takes `state_mutex_` next goes on, or its owner does. -/
theorem Tracks.mutex_enabled (hfree : s.stateMutex = none → Enabled totalThreads throws s) : Enabled totalThreads throws s := by
  cases hmutex : s.stateMutex with
  | none => exact hfree hmutex
  | some t => exact htracks.owner_enabled hmutex

/-- A worker that is in its loop and not asleep goes on, or waits for the owner of the mutex. -/
theorem Tracks.worker_enabled {base : Memory α} {current : List Event} (hcurrent : Current totalThreads throws base current a)
    (w : Nat) (hstarted : (s.workers w).pc ≠ .unstarted) (hawake : (s.workers w).pc ≠ .asleep)
    (hexited : (s.workers w).pc ≠ .exited) : Enabled totalThreads throws s := by
  have hok := htracks.workers w
  rcases hw : s.workers w with ⟨pc, o⟩
  rw [hw] at hok hstarted hawake hexited
  cases pc with
  | unstarted => exact absurd rfl hstarted
  | asleep => exact absurd rfl hawake
  | exited => exact absurd rfl hexited
  | entering => exact htracks.mutex_enabled fun hfree => ⟨_, _, .worker w (.lock hw hfree)⟩
  | finishing error => exact htracks.mutex_enabled fun hfree => ⟨_, _, .worker w (.lockDone hw hfree)⟩
  | testing | recording error =>
    refine htracks.owner_enabled ((htracks.stateMutex (.worker w)).1 ?_)
    simp only [State.inside, hw]
    trivial
  | running job c =>
    obtain ⟨-, r, hphase, rfl, hs⟩ := hok
    obtain ⟨m, phase⟩ := a
    cases hphase
    have hle := hcurrent.written_le w
    rw [hs] at hle
    rcases Nat.lt_or_eq_of_le hle with hlt | heq
    · exact ⟨_, _, .worker w (.write hw hlt)⟩
    · exact ⟨_, _, .worker w (.finish hw heq)⟩
  | notifying =>
    by_cases hnone : ∃ i, s.workDone i
    · obtain ⟨i, hi⟩ := hnone
      exact ⟨_, _, .worker w (.notifyOne hw hi)⟩
    · exact ⟨_, _, .worker w (.notifyNone hw fun i hi => hnone ⟨i, hi⟩)⟩

/-- **The wait for completions ends.** While a submitter is asleep in `work_done_` some worker has yet to
record, and is not asleep, or is about to notify. -/
theorem Tracks.waiter_enabled {base : Memory α} {current : List Event} (hcurrent : Current totalThreads throws base current a)
    (hawake : Awake s) {i : Nat} {e : Option Exc} (hi : s.submitters i = .asleep e) : Enabled totalThreads throws s := by
  have hok := htracks.submitters i
  rw [hi] at hok
  obtain ⟨r, hphase, rfl, -⟩ := hok
  by_cases hdone : s.Done
  · obtain ⟨w, hw⟩ := hawake.done r.submitter ⟨e, hi⟩ hdone
    exact htracks.worker_enabled hcurrent w (by simp [hw]) (by simp [hw]) (by simp [hw])
  · have hready : s.main = .ready := htracks.calls r.submitter (by rw [hi]; simp)
    have hstop := (htracks.ready hready).2
    -- not all workers have recorded
    have hcount : r.recordedCount s.started ≠ s.started := by
      intro hall
      refine hdone (UInt64.toNat_inj.1 ?_)
      have hlt : s.started < 2 ^ 64 := Nat.lt_trans htracks.started_lt (UInt64.toNat_lt totalThreads)
      rw [(htracks.round r hphase).1, hall, UInt64.toNat_ofNat_of_lt' hlt]
    rw [ne_eq, Round.recordedCount_eq_iff] at hcount
    simp only [not_forall] at hcount
    obtain ⟨w, hpos, hle, hnot⟩ := hcount
    have hfinal : ¬(r.shards w).Final w := fun hf => hnot ((Shard.final_iff (Nat.ne_of_gt hpos) _).1 hf)
    refine htracks.worker_enabled hcurrent w (fun hpc => (htracks.unstarted w).1 hpc ⟨hpos, hle⟩) (fun hpc => ?_)
      fun hpc => ?_
    · -- a worker that sleeps through the round has a notification coming, from a submitter that is not asleep
      have hw := htracks.workers w
      simp only [WorkerOk, hpc] at hw
      rcases hw with ⟨r', hr', hs, ho⟩ | ⟨-, hall⟩
      · have hgen : s.generation ≠ (s.workers w).observedGeneration := by
          intro heq
          rw [heq] at ho
          exact absurd ho (by simp)
        rcases hawake.ready w hpc (.inr hgen) with ⟨i, job, hnotifying⟩ | hmain
        · have hok' := htracks.submitters i
          rw [hnotifying] at hok'
          obtain ⟨r'', hr'', rfl, -⟩ := hok'
          rw [hphase] at hr''
          cases hr''
          rw [hi] at hnotifying
          cases hnotifying
        · rw [hready] at hmain
          cases hmain
      · exact hfinal (hall r hphase)
    · have hw := htracks.workers w
      simp only [WorkerOk, hpc] at hw
      rw [hstop] at hw
      exact Bool.false_ne_true hw

/-- **The submission that has `submit_mutex_` goes on.** -/
theorem Tracks.holder_enabled {base : Memory α} {current : List Event} (hcurrent : Current totalThreads throws base current a)
    (hawake : Awake s) {i : Nat} (hholder : a.phase.holder = some i) : Enabled totalThreads throws s := by
  have hok := htracks.submitters i
  cases hi : s.submitters i with
  | outside =>
    rw [hi] at hok
    exact absurd hholder hok
  | entering job =>
    rw [hi] at hok
    exact absurd hholder hok.1
  | admitted job =>
    by_cases hpar : Parallel totalThreads job
    · exact htracks.mutex_enabled fun hfree => ⟨_, _, .submitter i (.lock hi hpar hfree)⟩
    · exact ⟨_, _, .submitter i (.fallback hi hpar)⟩
  | scalar job c =>
    rw [hi] at hok
    obtain ⟨hphase, -⟩ := hok
    obtain ⟨m, phase⟩ := a
    cases hphase
    have hle : c ≤ job.outputChannels.toNat := by
      cases hcurrent with
      | admitted _ hc _ _ => exact hc
    rcases Nat.lt_or_eq_of_le hle with hlt | heq
    · exact ⟨_, _, .submitter i (.scalarWrite hi hlt)⟩
    · exact ⟨_, _, .submitter i (.scalarReturn hi heq)⟩
  | publishing job => exact ⟨_, _, .submitter i (.publish hi)⟩
  | notifying job => exact ⟨_, _, .submitter i (.notifyAll hi)⟩
  | notified job => exact ⟨_, _, .submitter i (.begin hi)⟩
  | running job c =>
    rw [hi] at hok
    obtain ⟨r, hphase, -, rfl, hs⟩ := hok
    obtain ⟨m, phase⟩ := a
    cases hphase
    have hle := hcurrent.written_le 0
    rw [hs] at hle
    rcases Nat.lt_or_eq_of_le hle with hlt | heq
    · exact ⟨_, _, .submitter i (.write hi hlt)⟩
    · exact ⟨_, _, .submitter i (.finish hi heq)⟩
  | joining e => exact htracks.mutex_enabled fun hfree => ⟨_, _, .submitter i (.lockDone hi hfree)⟩
  | testing e =>
    by_cases hdone : s.completed = UInt64.ofNat s.started
    · exact ⟨_, _, .submitter i (.collect hi hdone)⟩
    · exact ⟨_, _, .submitter i (.wait hi hdone)⟩
  | asleep e => exact htracks.waiter_enabled hcurrent hawake hi
  | returning e e' => exact ⟨_, _, .submitter i (.return hi)⟩

theorem Tracks.submitter_enabled {base : Memory α} {current : List Event} (hcurrent : Current totalThreads throws base current a)
    (hawake : Awake s) {i : Nat} (hi : s.submitters i ≠ .outside) : Enabled totalThreads throws s := by
  by_cases hholder : ∃ j, a.phase.holder = some j
  · obtain ⟨j, hj⟩ := hholder
    exact htracks.holder_enabled hcurrent hawake hj
  · have hnone : a.phase.holder = none := by
      cases hphase : a.phase.holder with
      | none => rfl
      | some j => exact absurd ⟨j, hphase⟩ hholder
    have hok := htracks.submitters i
    cases hpc : s.submitters i with
    | outside => exact absurd hpc hi
    | entering job => exact ⟨_, _, .submitter i (.acquire hpc (htracks.submitMutex.trans hnone))⟩
    | admitted job =>
      rw [hpc] at hok
      rw [show a.phase = _ from hok] at hnone
      cases hnone
    | scalar job c | publishing job =>
      rw [hpc] at hok
      rw [hok.1] at hnone
      cases hnone
    | notifying job | notified job | running job c | joining e | testing e | asleep e | returning e e' =>
      rw [hpc] at hok
      obtain ⟨r, hphase, -⟩ := hok
      rw [hphase] at hnone
      cases hnone

/-- **`stop_workers` and the constructor go on.** -/
theorem Tracks.main_enabled {base : Memory α} {current : List Event} (hcurrent : Current totalThreads throws base current a)
    (hawake : Awake s) (hready : s.main ≠ .ready) (hstopped : s.main ≠ .stopped) : Enabled totalThreads throws s := by
  cases hmain : s.main with
  | ready => exact absurd hmain hready
  | stopped => exact absurd hmain hstopped
  | constructing =>
    by_cases hmore : s.started + 1 < totalThreads.toNat
    · exact ⟨_, _, .main (.start hmain hmore)⟩
    · exact ⟨_, _, .main (.complete hmain hmore)⟩
  | stopping => exact htracks.mutex_enabled fun hfree => ⟨_, _, .main (.lock hmain hfree)⟩
  | setting => exact ⟨_, _, .main (.set hmain)⟩
  | notifying => exact ⟨_, _, .main (.notifyAll hmain)⟩
  | joining w =>
    by_cases hle : w ≤ s.started
    · by_cases hexit : (s.workers w).pc = .exited
      · exact ⟨_, _, .main (.join hmain hle hexit)⟩
      · refine htracks.worker_enabled hcurrent w (fun hpc => ?_) (fun hasleep => ?_) hexit
        · exact (htracks.unstarted w).1 hpc ⟨hawake.joining w hmain, hle⟩
        · -- nobody is asleep once `stop_workers` has notified
          have hstop : s.stopping = true := hawake.stopping (by rw [hmain]; trivial)
          rcases hawake.ready w hasleep (.inl hstop) with ⟨i, job, hi⟩ | hmain'
          · rw [htracks.out_of_main hready i] at hi
            cases hi
          · rw [hmain] at hmain'
            cases hmain'
    · exact ⟨_, _, .main (.joined hmain (Nat.lt_of_not_le hle))⟩

/-- Once `stopping_` is set it stays set, and nobody shows anything. -/
theorem Tracks.stopping_step (hstop : s.stopping = true) (hs : (system totalThreads throws).step s l s') :
    l = none ∧ s'.stopping = true := by
  have hready : s.main ≠ .ready := by
    intro hr
    rw [(htracks.ready hr).2] at hstop
    exact Bool.false_ne_true hstop
  have hidle := htracks.idle_of_main hready
  have hout := htracks.out_of_main hready
  rcases hs with hs | ⟨rfl, hs⟩
  · cases hs with
    | worker w hs =>
      cases hs with
      | lock _ _ | wait _ _ | exit _ _ | lockDone _ _ | notifyOne _ _ | notifyNone _ _ => exact ⟨rfl, hstop⟩
      | take _ hnot _ =>
        rw [hnot] at hstop
        exact absurd hstop Bool.false_ne_true
      | write hpc _ | finish hpc _ | throw hpc _ =>
        obtain ⟨m, r, rfl, -⟩ := htracks.round_of_running hpc
        cases hidle
      | record hpc =>
        obtain ⟨m, r, c, rfl, -⟩ := htracks.round_of_ended (.inr hpc)
        cases hidle
    | submitter i hs =>
      cases hs with
      | acquire hpc _ | fallback hpc _ | scalarWrite hpc _ | scalarReturn hpc _ | lock hpc _ _ | publish hpc | notifyAll hpc
      | begin hpc | write hpc _ | finish hpc _ | throw hpc _ | lockDone hpc _ | wait hpc _ | collect hpc _ | «return» hpc =>
        cases (hout i).symm.trans hpc
    | main hs =>
      cases hs with
      | set _ => exact ⟨rfl, rfl⟩
      | _ => exact ⟨rfl, hstop⟩
  · cases hs with
    | call hr _ _ => exact absurd hr hready
    | destroy hr _ => exact absurd hr hready

end

/-- What a run reaches is tracked and awake. -/
theorem run_awake (hpos : 0 < totalThreads.toNat) {memory : Memory α} {t : List Event}
    (h : Run (system totalThreads throws) (init memory) t s) :
    ∃ a, Run (serial totalThreads throws) ⟨memory, .idle⟩ t a ∧ Tracks totalThreads s a ∧ Awake s := by
  refine h.simulate (R := fun s a => Tracks totalThreads s a ∧ Awake s) (fun s a l s' hR hl => ?_)
    ⟨tracks_init hpos memory, awake_init memory⟩
  obtain ⟨a', hserial, htracks'⟩ := hR.1.step hl
  exact ⟨a', hserial, htracks', hR.2.step hR.1 hl⟩

/-- Nothing is shown after `stopping_` is set. -/
theorem run_stopping (hstop : s.stopping = true) (htracks : Tracks totalThreads s a) {t : List Event}
    (h : Run (system totalThreads throws) s t s') : t = [] := by
  refine (h.quiet (I := fun s => s.stopping = true ∧ ∃ a, Tracks totalThreads s a) ?_ ⟨hstop, a, htracks⟩).1
  rintro s l s' ⟨hstop, a, htracks⟩ hl
  obtain ⟨hsilent, hstop'⟩ := htracks.stopping_step hstop hl
  obtain ⟨a', -, htracks'⟩ := htracks.step hl
  exact ⟨hsilent, hstop', a', htracks'⟩

/-- **No deadlock, no lost wake-up.** In every state reached, whatever the shards throw and wherever the
constructor failed: a waiter whose predicate holds has a thread that is about to notify it; as long as a call or
`stop_workers` has not returned some thread has an enabled step; and once `stop_workers` has returned every
worker it started has left its loop, and no shard has run since `stopping_` was set. -/
theorem never_deadlocks (hpos : 0 < totalThreads.toNat) {memory : Memory α} {t : List Event}
    (h : Run (system totalThreads throws) (init memory) t s) :
    ((∀ w, s.workReady w → s.Ready w → (∃ i job, s.submitters i = .notifying job) ∨ s.main = .notifying) ∧
      ∀ i, s.workDone i → s.Done → ∃ w, (s.workers w).pc = .notifying) ∧
    ((∃ i, s.submitters i ≠ .outside) ∨ (s.main ≠ .ready ∧ s.main ≠ .stopped) →
      ∃ l s', Step totalThreads throws s l s') ∧
    (s.main = .stopped → s.stopping = true ∧ ∀ w, 0 < w → w ≤ s.started → (s.workers w).pc = .exited) ∧
    (s.stopping = true → ∀ t' s', Run (system totalThreads throws) s t' s' → t' = []) := by
  obtain ⟨a, hserial, htracks, hawake⟩ := run_awake hpos h
  obtain ⟨blocks, current, hevents, hcomplete, base, hcurrent, -⟩ := serial_history hpos hserial
  refine ⟨⟨hawake.ready, hawake.done⟩, ?_, fun hstopped => ⟨?_, fun w hw hle => ?_⟩, fun hstop t' s' hrun => ?_⟩
  · rintro (⟨i, hi⟩ | ⟨hready, hstopped⟩)
    · exact htracks.submitter_enabled hcurrent hawake hi
    · exact htracks.main_enabled hcurrent hawake hready hstopped
  · exact hawake.stopping (by rw [hstopped]; trivial)
  · exact hawake.joined w hw hle (by rw [hstopped]; trivial)
  · exact run_stopping hstop htracks hrun

variable (throws) in
/-- The constructor fails to start the second of two workers and stops the first. -/
theorem shutdown_run : ∃ s : State Int, Run (system 3 throws) (init fun _ => 0) [] s ∧ s.main = .stopped ∧ s.started = 1 := by
  have hstart : Run (system 3 throws) (init fun _ => (0 : Int)) [] _ := Run.refl.silent (system_main (.start rfl (by decide)))
  have hfail := hstart.silent (system_main (.fail rfl (by decide)))
  have hset := (hfail.silent (system_main (.lock rfl rfl))).silent (system_main (.set rfl))
  have hnotify := hset.silent (system_main (.notifyAll rfl))
  have hexit := (hnotify.silent (system_worker (.lock (w := 1) rfl rfl))).silent (system_worker (.exit (w := 1) rfl rfl))
  have hjoin := hexit.silent (system_main (.join (w := 1) rfl (Nat.le_refl 1) rfl))
  exact ⟨_, hjoin.silent (system_main (.joined rfl (Nat.lt_succ_self 1))), rfl, rfl⟩

theorem never_deadlocks_shutdown : ∃ s : State Int, s.main = .stopped ∧ s.stopping = true ∧ (s.workers 1).pc = .exited := by
  obtain ⟨s, hrun, hstopped, hstarted⟩ := shutdown_run fun _ _ _ => True
  obtain ⟨-, -, hreturned, -⟩ := never_deadlocks (by decide) hrun
  exact ⟨s, hstopped, (hreturned hstopped).1, (hreturned hstopped).2 1 Nat.one_pos (Nat.le_of_eq hstarted.symm)⟩

end

end Gpt2Runtime.LinearExecutor
