import Gpt2Runtime.ExecutorSubmissions
/-
# What the threads of the executor touch (`linear_executor.cpp:53-160`)

| here | there |
| --- | --- |
| `Computes`              | a thread about to compute and write an output channel of a job |
| `Job.Reads`             | the floats `kernels::linear` reads for that channel |
| `Guarded`               | the members `state_mutex_` protects |
| `ThreadStep`            | a step and the thread that takes it |

A float is touched only for the call that has `submit_mutex_`, and an output channel by one thread only. What one
thread writes another may read only if the output of the call overlaps its input, weight or bias, which `linear` does
not check. The members are touched under `state_mutex_` only: any other step can be taken whatever they are, and leaves
them alone.
-/

namespace Gpt2Runtime.LinearExecutor

open Loop Flat Word Kernels Lts

variable {α : Type}

/-- The thread's next step may compute channel `o` of the job. -/
inductive Computes (totalThreads : UInt64) (s : State α) : Thread → Job → Nat → Prop
  | worker {w : Nat} {job : Job} {c : Nat} {observed : UInt64} (hpc : s.workers w = ⟨.running job c, observed⟩)
      (hc : c < shardCount totalThreads job w) : Computes totalThreads s (.worker w) job (shardFirst totalThreads job w + c)
  | submitter {i : Nat} {job : Job} {c : Nat} (hpc : s.submitters i = .running job c) (hc : c < shardCount totalThreads job 0) :
      Computes totalThreads s (.submitter i) job (shardFirst totalThreads job 0 + c)
  | scalar {i : Nat} {job : Job} {c : Nat} (hpc : s.submitters i = .scalar job c) (hc : c < job.outputChannels.toNat) :
      Computes totalThreads s (.submitter i) job c

/-- The input, the channel's row of the weight and its bias. -/
def Job.Reads (job : Job) (o address : Nat) : Prop :=
  job.input.Covers address ∨
    (job.weight.data + o * job.inputChannels.toNat ≤ address ∧
      address < job.weight.data + (o + 1) * job.inputChannels.toNat) ∨
    (job.bias.size ≠ 0 ∧ address = job.bias.data + o)

structure Guarded where
  job : Job
  workerError : Option Exc
  generation : UInt64
  completed : UInt64
  stopping : Bool

def State.withGuarded (s : State α) (g : Guarded) : State α :=
  { s with job := g.job, workerError := g.workerError, generation := g.generation, completed := g.completed, stopping := g.stopping }

section

variable [Scalar α] (totalThreads : UInt64) (throws : Throws)

inductive ThreadStep (s : State α) (l : Option Event) (s' : State α) : Thread → Prop
  | worker {w : Nat} (h : WorkerStep totalThreads throws w s l s') : ThreadStep s l s' (.worker w)
  | submitter {i : Nat} (h : SubmitterStep totalThreads throws i s l s') : ThreadStep s l s' (.submitter i)
  | main (h : MainStep totalThreads s l s') : ThreadStep s l s' .main

end

/-! ## The channel a thread computes -/

section

variable [Scalar α] {totalThreads : UInt64} {throws : Throws} {s s' : State α} {l : Option Event} {a : Serial α}
  {thread thread' : Thread} {job job' : Job} {o o' : Nat}

/-- The current submission stands in the fallback or in a round, and the thread has a shard of it. -/
inductive Runs (totalThreads : UInt64) (phase : Phase) : Thread → Job → Nat → Prop
  | scalar {i : Nat} {job : Job} {c : Nat} (hphase : phase = .admitted i job c) (hc : c < job.outputChannels.toNat) :
      Runs totalThreads phase (.submitter i) job c
  | shard {r : Round} {shard c : Nat} (hphase : phase = .round r) (hshard : shard < totalThreads.toNat)
      (hc : c < shardCount totalThreads r.job shard) :
      Runs totalThreads phase (runner r.submitter shard) r.job (shardFirst totalThreads r.job shard + c)

omit [Scalar α] in
theorem Computes.runs (h : Computes totalThreads s thread job o) (htracks : Tracks totalThreads s a) :
    Runs totalThreads a.phase thread job o := by
  cases h with
  | @worker w job c observed hpc hc =>
    obtain ⟨m, r, rfl, -, rfl, -⟩ := htracks.round_of_running hpc
    obtain ⟨hw, -, hlt⟩ := htracks.worker_lt (w := w) (by rw [hpc]; simp)
    rw [← runner_worker (i := r.submitter) hw]
    exact .shard rfl hlt hc
  | @submitter i job c hpc hc =>
    have hok := htracks.submitters i
    rw [hpc] at hok
    obtain ⟨r, hphase, rfl, rfl, -⟩ := hok
    exact .shard hphase htracks.pos hc
  | @scalar i job c hpc hc =>
    have hok := htracks.submitters i
    rw [hpc] at hok
    exact .scalar hok.1 hc

theorem Runs.lt {phase : Phase} (h : Runs totalThreads phase thread job o) : o < job.outputChannels.toNat := by
  cases h with
  | scalar _ hc => exact hc
  | shard _ hshard hc => exact shard_channel_lt hshard hc

/-- **Two threads work on one job, on different channels.** -/
theorem Runs.apart {phase : Phase} (h : Runs totalThreads phase thread job o) (h' : Runs totalThreads phase thread' job' o')
    (hne : thread ≠ thread') : job' = job ∧ o ≠ o' := by
  cases h with
  | scalar hphase _ =>
    cases h' with
    | scalar hphase' _ =>
      rw [hphase] at hphase'
      cases hphase'
      exact absurd rfl hne
    | shard hphase' =>
      rw [hphase] at hphase'
      cases hphase'
  | @shard r shard c hphase hshard hc =>
    cases h' with
    | scalar hphase' _ =>
      rw [hphase] at hphase'
      cases hphase'
    | @shard r' shard' c' hphase' hshard' hc' =>
      rw [hphase] at hphase'
      cases hphase'
      have hshards : shard ≠ shard' := fun heq => hne (heq ▸ rfl)
      obtain ⟨hfirst, hcount⟩ := shardRange_eq r.job.outputChannels hshard
      obtain ⟨hfirst', hcount'⟩ := shardRange_eq r.job.outputChannels hshard'
      refine ⟨rfl, ?_⟩
      unfold shardFirst
      rw [hfirst, hfirst']
      exact Partition.block_ne hshards (hcount ▸ hc) (hcount' ▸ hc')

/-- The call a running thread works for is the one that took the executor last, and it has not returned. -/
theorem Runs.current {base : Memory α} {current : List Event} (h : Runs totalThreads a.phase thread job o)
    (hcurrent : Current totalThreads throws base current a) :
    job.Sized ∧ ∃ i rest, current = .acquire i job :: rest ∧ (∀ j other, Event.acquire j other ∉ rest) ∧
      ∀ j r, Event.return j r ∉ rest := by
  cases hcurrent with
  | idle =>
    cases h with
    | scalar hphase => cases hphase
    | shard hphase => cases hphase
  | @admitted m i job' c hsized _ _ _ =>
    cases h with
    | shard hphase => cases hphase
    | scalar hphase =>
      cases hphase
      exact ⟨hsized, i, _, rfl, by simp [List.mem_replicate], by simp [List.mem_replicate]⟩
  | @round m r work hsized _ hwork _ _ =>
    cases h with
    | scalar hphase => cases hphase
    | shard hphase =>
      cases hphase
      refine ⟨hsized, r.submitter, _, rfl, fun j other hmem => ?_, fun j result hmem => ?_⟩
      · simp only [List.mem_cons, reduceCtorEq, false_or] at hmem
        exact hwork.only _ hmem rfl
      · simp only [List.mem_cons, reduceCtorEq, false_or] at hmem
        exact hwork.only _ hmem rfl

omit [Scalar α] in
/-- What the kernel reads for a channel is in the spans the call only reads. -/
theorem Job.Reads.covers {address : Nat} (h : job.Reads o address) (hsized : job.Sized) (ho : o < job.outputChannels.toNat) :
    job.input.Covers address ∨ job.weight.Covers address ∨ job.bias.Covers address := by
  rcases h with h | ⟨hle, hlt⟩ | ⟨hbias, rfl⟩
  · exact .inl h
  · refine .inr (.inl ⟨by omega, ?_⟩)
    have hrow : (o + 1) * job.inputChannels.toNat ≤ _ := Nat.mul_le_mul_right job.inputChannels.toNat ho
    rw [hsized.weight]
    omega
  · refine .inr (.inr ⟨Nat.le_add_right _ _, ?_⟩)
    rw [hsized.bias.resolve_left hbias]
    exact Nat.add_lt_add_left ho _

/-! ## The members -/

/-- **Outside the mutex** a thread's step does not depend on the members and leaves them alone. -/
theorem ThreadStep.frame (hs : ThreadStep totalThreads throws s l s' thread) (hout : ¬s.inside thread) (g : Guarded) :
    ThreadStep totalThreads throws (s.withGuarded g) l (s'.withGuarded g) thread := by
  cases hs with
  | @worker w hs =>
    have hno : ¬(s.workers w).pc.Inside := hout
    refine .worker ?_
    cases hs with
    | wait hpc _ | exit hpc _ | take hpc _ _ | record hpc => exact absurd (by rw [hpc]; trivial) hno
    | lock hpc hfree => exact .lock hpc hfree
    | write hpc hc => exact .write hpc hc
    | finish hpc hc => exact .finish hpc hc
    | throw hpc he => exact .throw hpc he
    | lockDone hpc hfree => exact .lockDone hpc hfree
    | notifyOne hpc hi => exact .notifyOne hpc hi
    | notifyNone hpc hi => exact .notifyNone hpc hi
  | @submitter i hs =>
    have hno : ¬(s.submitters i).Inside := hout
    refine .submitter ?_
    cases hs with
    | publish hpc | wait hpc _ | collect hpc _ => exact absurd (by rw [hpc]; trivial) hno
    | acquire hpc hfree => exact .acquire hpc hfree
    | fallback hpc hpar => exact .fallback hpc hpar
    | scalarWrite hpc hc => exact .scalarWrite hpc hc
    | scalarReturn hpc hc => exact .scalarReturn hpc hc
    | lock hpc hpar hfree => exact .lock hpc hpar hfree
    | notifyAll hpc => exact .notifyAll hpc
    | begin hpc => exact .begin hpc
    | write hpc hc => exact .write hpc hc
    | finish hpc hc => exact .finish hpc hc
    | throw hpc he => exact .throw hpc he
    | lockDone hpc hfree => exact .lockDone hpc hfree
    | «return» hpc => exact .return hpc
  | main hs =>
    have hno : ¬s.main.Inside := hout
    refine .main ?_
    cases hs with
    | set hpc => exact absurd (by rw [hpc]; trivial) hno
    | start hpc hmore => exact .start hpc hmore
    | fail hpc hmore => exact .fail hpc hmore
    | complete hpc hall => exact .complete hpc hall
    | lock hpc hfree => exact .lock hpc hfree
    | notifyAll hpc => exact .notifyAll hpc
    | join hpc hw hexit => exact .join hpc hw hexit
    | joined hpc hw => exact .joined hpc hw

/-! ## Every access -/

/-- **The threads do not race.** In every run: a thread computes only channels of the call that has the executor and
has not returned; two threads compute different channels of it, and, if its output is apart from its inputs, neither
writes what the other reads; and a thread that does not hold `state_mutex_` neither reads nor writes the members it
protects. -/
theorem threads_do_not_race (hpos : 0 < totalThreads.toNat) {memory : Memory α} {t : List Event}
    (h : Run (system totalThreads throws) (init memory) t s) :
    (∀ thread job o, Computes totalThreads s thread job o → o < job.outputChannels.toNat ∧
      ∃ i before rest, t = before ++ .acquire i job :: rest ∧ (∀ j other, Event.acquire j other ∉ rest) ∧
        ∀ j r, Event.return j r ∉ rest) ∧
    (∀ thread thread' job job' o o', thread ≠ thread' → Computes totalThreads s thread job o →
      Computes totalThreads s thread' job' o' → job' = job ∧ job.output.data + o ≠ job.output.data + o' ∧
        (job.Separate → ¬job.Reads o' (job.output.data + o))) ∧
    ∀ thread l s', ThreadStep totalThreads throws s l s' thread → s.stateMutex ≠ some thread →
      ∀ g, ThreadStep totalThreads throws (s.withGuarded g) l (s'.withGuarded g) thread := by
  obtain ⟨a, hserial, htracks⟩ := executor_refines_serial hpos h
  obtain ⟨blocks, current, rfl, -, base, hcurrent, -⟩ := serial_history hpos hserial
  refine ⟨?_, ?_, ?_⟩
  · intro thread job o hcomputes
    have hruns := hcomputes.runs htracks
    obtain ⟨-, i, rest, rfl, hacquire, hreturn⟩ := hruns.current hcurrent
    exact ⟨hruns.lt, i, _, rest, rfl, hacquire, hreturn⟩
  · intro thread thread' job job' o o' hne hcomputes hcomputes'
    have hruns := hcomputes.runs htracks
    obtain ⟨rfl, hapart⟩ := hruns.apart (hcomputes'.runs htracks) hne
    refine ⟨rfl, fun heq => hapart (Nat.add_left_cancel heq), fun hsep hreads => ?_⟩
    obtain ⟨hsized, -⟩ := hruns.current hcurrent
    -- the float is in the output, the floats read are not
    have hwritten : job'.output.Covers (job'.output.data + o) := by
      refine ⟨Nat.le_add_right _ _, ?_⟩
      rw [hsized.output]
      exact Nat.add_lt_add_left hruns.lt _
    obtain ⟨hinput, hweight, hbias⟩ := hsep _ hwritten
    rcases hreads.covers hsized (hcomputes'.runs htracks).lt with hc | hc | hc
    · exact hinput hc
    · exact hweight hc
    · exact hbias hc
  · intro thread l s' hs hfree
    exact hs.frame fun hin => hfree ((htracks.stateMutex thread).1 hin)

/-- Both threads have begun their shard of the smallest job they share. -/
def wideRound : Round :=
  ((⟨0, wideJob, fun _ => .pending, none⟩ : Round).set 0 (.running 0)).set 1 (.running 0)

theorem wide_running (throws : Throws) : ∃ s : State Int, Run (system 2 throws) (init fun _ => 0)
    [.acquire 0 wideJob, .publish 0, .begin (.submitter 0) 0 wideJob, .begin (.worker 1) 1 wideJob] s ∧
    s.submitters 0 = .running wideJob 0 ∧ s.workers 1 = ⟨.running wideJob 0, s.generation⟩ := by
  have hserial : Run (serial 2 throws) ⟨fun _ => (0 : Int), .idle⟩
      [.acquire 0 wideJob, .publish 0, .begin (.submitter 0) 0 wideJob, .begin (.worker 1) 1 wideJob]
      ⟨fun _ => 0, .round wideRound⟩ := by
    refine .cons ⟨_, rfl, .acquire rfl⟩ ?_
    refine .cons ⟨_, rfl, .publish (by decide)⟩ ?_
    refine .cons ⟨_, rfl, .begin (by decide : 0 < (2 : UInt64).toNat) rfl⟩ ?_
    exact .cons ⟨_, rfl, .begin (by decide : 1 < (2 : UInt64).toNat) rfl⟩ .refl
  obtain ⟨s, hrun, hmatch⟩ := serial_realizable (by decide) hserial
  exact ⟨s, hrun, hmatch.caller, hmatch.worker Nat.one_pos (by decide)⟩

theorem threads_do_not_race_wide : ∃ s : State Int, s.submitters 0 = .running wideJob 0 ∧
    (s.workers 1).pc = .running wideJob 0 ∧
    wideJob.output.data + shardFirst 2 wideJob 0 ≠ wideJob.output.data + shardFirst 2 wideJob 1 ∧
    ¬wideJob.Reads (shardFirst 2 wideJob 1) (wideJob.output.data + shardFirst 2 wideJob 0) := by
  obtain ⟨s, hrun, hsubmitter, hworker⟩ := wide_running (shardThrows Int 2)
  have hcount : 0 < shardCount 2 wideJob 0 ∧ 0 < shardCount 2 wideJob 1 := by decide
  obtain ⟨-, hapart, -⟩ := threads_do_not_race (by decide) hrun
  obtain ⟨-, hwrites, hreads⟩ := hapart _ _ _ _ _ _ (by simp) (.submitter hsubmitter hcount.1) (.worker hworker hcount.2)
  exact ⟨s, hsubmitter, by rw [hworker], hwrites, hreads wideJob_separate⟩

end

end Gpt2Runtime.LinearExecutor
