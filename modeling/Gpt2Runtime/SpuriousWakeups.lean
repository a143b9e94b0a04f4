import Gpt2Runtime.ExecutorTermination
/-
# Waits that return by themselves

`std::condition_variable::wait` may return although nobody has notified. Both waits of the executor are given their
predicate (`linear_executor.cpp:77-79`, `:150`), so a waiter that wakes up takes the mutex, tests and goes back to
sleep.

| here | there |
| --- | --- |
| `Spurious`              | `wait` leaves the wait set of `work_ready_` or `work_done_` without a notification |
| `restless`              | the executor and its callers, with such waits at any time |

Such a run shows what a run without them shows and leaves the same memory, no call is stuck, and each of them costs the
threads two steps (`spurious_wakeups_harmless`).
-/

namespace Gpt2Runtime.LinearExecutor

open Lts

variable {α : Type} {totalThreads : UInt64} {s s' : State α}

inductive Spurious (s : State α) : State α → Prop
  | ready {w : Nat} {o : UInt64} (hpc : s.workers w = ⟨.asleep, o⟩) : Spurious s (s.setWorker w .entering o)
  | done {i : Nat} {e : Option Exc} (hpc : s.submitters i = .asleep e) : Spurious s (s.setSubmitter i (.joining e))

/-! ## One wake-up -/

/-- A waiter that is awake stands where it stood: between two jobs, or behind its own shard. -/
theorem Tracks.spurious {a : Serial α} (h : Tracks totalThreads s a) (hs : Spurious s s') : Tracks totalThreads s' a := by
  cases hs with
  | @ready w o hpc =>
    have hok := h.workers w
    rw [hpc] at hok
    exact h.moveWorker (by simp [hpc]) (by simp) hok (owned_setWorker_keep h.stateMutex (by rw [hpc]; exact Iff.rfl))
  | @done i e hpc =>
    have hok := h.submitters i
    rw [hpc] at hok
    exact h.moveSubmitter (h.calls i (by rw [hpc]; simp)) hok
      (owned_setSubmitter_keep h.stateMutex (by rw [hpc]; exact Iff.rfl))

/-- Fewer are asleep than before. -/
theorem Awake.spurious (h : Awake s) (hs : Spurious s s') : Awake s' := by
  cases hs with
  | ready hpc => exact h.moveWorker (by simp [hpc]) (by simp [hpc]) (by simp) (.inl rfl)
  | done hpc => exact h.moveSubmitter (by simp [hpc]) (by simp)

theorem Spurious.callersBelow {n : Nat} (hs : Spurious s s') (h : s.CallersBelow n) : s'.CallersBelow n := by
  intro j hj
  cases hs with
  | ready hpc => exact h j hj
  | @done i e hpc =>
    have hlt : i < n := h.lt (by rw [hpc]; simp)
    exact (State.setSubmitter_of_ne (by omega)).trans (h j hj)

/-- A waiter takes two steps to be asleep again. -/
theorem Spurious.remaining_le {n : Nat} {a : Serial α} (hs : Spurious s s') (htracks : Tracks totalThreads s a)
    (hcallers : s.CallersBelow n) : s'.remaining totalThreads n ≤ s.remaining totalThreads n + 2 := by
  cases hs with
  | @ready w o hpc =>
    obtain ⟨-, hle⟩ := htracks.worker_range (w := w) (by rw [hpc]; simp)
    have hlt : w < totalThreads.toNat := Nat.lt_of_le_of_lt hle htracks.started_lt
    have hsame : ∀ v, v ≠ w → (s.setWorker w .entering o).workers v = s.workers v := fun v hv => State.setWorker_of_ne hv
    have hsum := workerRemaining_update hlt hsame rfl rfl
    have hafter : (s.setWorker w .entering o).workerRemaining totalThreads w = s.workerRemaining totalThreads w + 2 := by
      simp only [State.workerRemaining, State.setWorker, Function.update_self, hpc, WorkerPc.remaining, Worker.Stale,
        WorkerPc.isStarted]
      omega
    rw [hafter] at hsum
    simp only [State.remaining, State.setWorker] at hsum ⊢
    omega
  | @done i e hpc =>
    have hsame : ∀ j, j ≠ i → (s.setSubmitter i (.joining e)).submitters j = s.submitters j :=
      fun j hj => State.setSubmitter_of_ne hj
    have hworkers : ∑ w ∈ Finset.range totalThreads.toNat, (s.setSubmitter i (.joining e)).workerRemaining totalThreads w ≤
        (∑ w ∈ Finset.range totalThreads.toNat, s.workerRemaining totalThreads w) + 0 := workerRemaining_same rfl rfl rfl
    have hsum := submitterRemaining_update totalThreads (hcallers.lt (by rw [hpc]; simp)) hsame
    have hbefore : (s.submitters i).remaining totalThreads = 1 := by rw [hpc]; rfl
    have hafter : ((s.setSubmitter i (.joining e)).submitters i).remaining totalThreads = 3 := by
      rw [State.setSubmitter_self]
      rfl
    rw [hbefore, hafter] at hsum
    simp only [State.remaining, State.setSubmitter] at hworkers hsum ⊢
    omega

/-! ## Runs -/

section

variable [Scalar α] {throws : Throws} {memory : Memory α} {t : List Event} {n : Nat}

variable (totalThreads throws) in
def restless : System (State α) Event where
  step s l s' := (system totalThreads throws).step s l s' ∨ (l = none ∧ Spurious s s')

theorem restless_awake (hpos : 0 < totalThreads.toNat) (h : Run (restless totalThreads throws) (init memory) t s) :
    ∃ a, Run (serial totalThreads throws) ⟨memory, .idle⟩ t a ∧ Tracks totalThreads s a ∧ Awake s := by
  refine h.simulate (R := fun s a => Tracks totalThreads s a ∧ Awake s) (fun s a l s' hR hl => ?_)
    ⟨tracks_init hpos memory, awake_init memory⟩
  obtain ⟨htracks, hawake⟩ := hR
  rcases hl with hl | ⟨rfl, hl⟩
  · obtain ⟨a', hserial, htracks'⟩ := htracks.step hl
    exact ⟨a', hserial, htracks', hawake.step htracks hl⟩
  · exact ⟨a, .refl, htracks.spurious hl, hawake.spurious hl⟩

theorem restless_callersBelow (h : Run (restless totalThreads throws) (init memory) t s) : ∃ n, s.CallersBelow n := by
  induction h with
  | refl => exact ⟨0, fun _ _ => rfl⟩
  | step _ hl ih =>
    obtain ⟨n, hcallers⟩ := ih
    rcases hl with hl | ⟨-, hl⟩
    · exact callersBelow_step hcallers hl
    · exact ⟨n, hl.callersBelow hcallers⟩

/-- The threads go on, and some waits return by themselves. -/
theorem restless_of_disturbed {steps wakes : Nat} (h : Disturbed (threads totalThreads throws) Spurious s steps wakes s') :
    ∃ t, Run (restless totalThreads throws) s t s' := by
  induction h with
  | refl => exact ⟨[], .refl⟩
  | step _ hl ih =>
    obtain ⟨t, hrun⟩ := ih
    exact ⟨_, hrun.step (.inl (.inl hl))⟩
  | disturb _ hd ih =>
    obtain ⟨t, hrun⟩ := ih
    exact ⟨t, hrun.silent (.inr ⟨rfl, hd⟩)⟩

/-- A run without such waits that shows the same. -/
theorem restless_realizable (hpos : 0 < totalThreads.toNat) (h : Run (restless totalThreads throws) (init memory) t s) :
    ∃ s', Run (system totalThreads throws) (init memory) t s' ∧ s'.memory = s.memory ∧
      ((∀ i, s.submitters i = .outside) → ∀ i, s'.submitters i = .outside) := by
  obtain ⟨⟨m, phase⟩, hserial, htracks, -⟩ := restless_awake hpos h
  obtain ⟨s', hrun, hmatch⟩ := serial_realizable hpos hserial
  refine ⟨s', hrun, hmatch.tracks.memory.trans htracks.memory.symm, fun hout => ?_⟩
  -- nobody is inside `linear`, so nobody has the executor
  have hidle : ∀ i, phase.holder ≠ some i := by
    intro i
    have hi := htracks.submitters i
    rw [hout i] at hi
    exact hi
  cases phase with
  | idle => exact hmatch.callers
  | admitted i => exact absurd rfl (hidle i)
  | round r => exact absurd rfl (hidle r.submitter)

/-- **Waits that return by themselves do no harm.** A run in which waiters wake up at any time without a notification
shows what some run without such wake-ups shows, and leaves its memory. From every state it reaches, the threads make a
bounded number of steps and two more for each such wake-up; they can always go on to a state in which none of them can
move, and there every call has returned and every worker is asleep in `work_ready_` or, after `stop_workers`, has left
its loop. -/
theorem spurious_wakeups_harmless (hpos : 0 < totalThreads.toNat)
    (h : Run (restless totalThreads throws) (init memory) t s) :
    (∃ s', Run (system totalThreads throws) (init memory) t s' ∧ s'.memory = s.memory ∧
      ((∀ i, s.submitters i = .outside) → ∀ i, s'.submitters i = .outside)) ∧
    (∃ bound, ∀ steps wakes s', Disturbed (threads totalThreads throws) Spurious s steps wakes s' → steps ≤ bound + 2 * wakes) ∧
    ∀ steps wakes s', Disturbed (threads totalThreads throws) Spurious s steps wakes s' →
      (∃ more s'', Steps (threads totalThreads throws) s' more s'' ∧ Stuck (threads totalThreads throws) s'') ∧
      (Stuck (threads totalThreads throws) s' → (∀ i, s'.submitters i = .outside) ∧
        ((s'.main = .ready ∧ ∀ w, 0 < w → w ≤ s'.started → s'.workReady w) ∨
          (s'.main = .stopped ∧ ∀ w, 0 < w → w ≤ s'.started → (s'.workers w).pc = .exited))) := by
  obtain ⟨n, hcallers⟩ := restless_callersBelow h
  obtain ⟨a, -, htracks, -⟩ := restless_awake hpos h
  have hmeasure : ∀ {steps wakes s'}, Disturbed (threads totalThreads throws) Spurious s steps wakes s' →
      (s'.CallersBelow n ∧ ∃ a, Tracks totalThreads s' a) ∧
        steps + s'.remaining totalThreads n ≤ s.remaining totalThreads n + 2 * wakes := by
    intro steps wakes s' hsteps
    refine hsteps.le_measure threads_lower (fun s s' hI hs => ?_) ⟨hcallers, a, htracks⟩
    obtain ⟨hcallers, a, htracks⟩ := hI
    exact ⟨⟨hs.callersBelow hcallers, a, htracks.spurious hs⟩, hs.remaining_le htracks hcallers⟩
  refine ⟨restless_realizable hpos h, ⟨s.remaining totalThreads n, fun steps wakes s' hsteps => ?_⟩,
    fun steps wakes s' hsteps => ⟨exists_stuck threads_lower (hmeasure hsteps).1, fun hstuck => ?_⟩⟩
  · have hle := (hmeasure hsteps).2
    omega
  · obtain ⟨t', hrun⟩ := restless_of_disturbed hsteps
    obtain ⟨a', hserial, htracks', hawake⟩ := restless_awake hpos (h.append hrun)
    exact stuck_of_tracks hpos hserial htracks' hawake hstuck

/-- The worker of two threads falls asleep and wakes up by itself: left alone it goes back to sleep. -/
theorem spurious_wakeups_harmless_worker : ∃ s s' : State Int, (s.workers 1).pc = .entering ∧
    Run (restless 2 (shardThrows Int 2)) (init fun _ => 0) [] s ∧
    (∃ steps, Steps (threads 2 (shardThrows Int 2)) s steps s') ∧ ∀ i, s'.submitters i = .outside := by
  have hstart : Run (restless 2 (shardThrows Int 2)) (init fun _ => (0 : Int)) [] _ :=
    Run.refl.silent (.inl (system_main (.start rfl (by decide))))
  have hready := hstart.silent (.inl (system_main (.complete rfl (by decide))))
  have htest := hready.silent (.inl (system_worker (.lock (w := 1) rfl rfl)))
  have hasleep := htest.silent (.inl (system_worker (.wait (w := 1) rfl (by simp [State.setWorker, init]))))
  have hrun := hasleep.silent (.inr ⟨rfl, .ready (w := 1) rfl⟩)
  obtain ⟨-, -, hreturned⟩ := spurious_wakeups_harmless (by decide) hrun
  obtain ⟨⟨steps, s', hsteps, hstuck⟩, -⟩ := hreturned 0 0 _ .refl
  exact ⟨_, s', rfl, hrun, ⟨steps, hsteps⟩, ((hreturned steps 0 s' hsteps.disturbed).2 hstuck).1⟩

end

end Gpt2Runtime.LinearExecutor
