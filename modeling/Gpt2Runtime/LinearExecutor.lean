import Gpt2Runtime.Kernels
import Gpt2Runtime.Gpt2
import Gpt2Runtime.Lib.Lts
import Mathlib.Logic.Function.Basic
/-
# The linear executor (`linear_executor.hpp`, `linear_executor.cpp`)

| here | there |
| --- | --- |
| `Span`, `Memory`        | a `std::span` and the floats of the process; spans of different calls may overlap |
| `Job`                   | `Job` (`linear_executor.hpp:46-53`) |
| `Job.check`             | the checks of `linear` before its first lock (`linear_executor.cpp:110-118`) |
| `Job.scalar`            | the scalar fallback: `kernels::linear` with one row (`:124-125`) |
| `Parallel`              | the fallback condition is false (`:122-123`) |
| `shardRange`, `runShard` | `run_shard` (`:53-69`) |
| `Job.call`              | `linear` on one thread: the reference the concurrent runs are compared with |
| `Worker`, `WorkerStep`  | `worker_loop` (`:71-102`), one thread for each shard from 1 |
| `Submitter`, `SubmitterStep` | `linear` from `submit_mutex_` on (`:121-160`), any number of threads |
| `Main`, `MainStep`      | the constructor and `stop_workers` (`:16-51`) |
| `Environment`           | a caller entering `linear`, the owner destroying the executor |

A thread is where it stands (`WorkerPc`, `Submitter`, `Main`). Taking a mutex is a step, enabled while the
mutex is free; the body of a critical section and the unlock at its end are one step; `wait` unlocks and
joins the wait set in one step, and a woken waiter takes the mutex again before it looks at the predicate.
The wait sets of `work_ready_` and `work_done_` are `State.workReady` and `State.workDone`; nothing but a
notification takes a thread out of one. Each float a shard or the fallback writes is a step of its own.
-/

namespace Gpt2Runtime

open Loop Word Kernels Lts

namespace LinearExecutor

variable {α : Type}

/-! ## Jobs -/

abbrev Memory (α : Type) := Nat → α

structure Span where
  data : Nat
  size : UInt64
deriving DecidableEq, Repr

def Span.empty : Span := ⟨0, 0⟩

/-- The addresses of the span's elements. -/
def Span.Covers (span : Span) (address : Nat) : Prop := span.data ≤ address ∧ address < span.data + span.size.toNat

instance (span : Span) (address : Nat) : Decidable (span.Covers address) := inferInstanceAs (Decidable (_ ∧ _))

def Span.values (span : Span) (memory : Memory α) : List α :=
  (List.range span.size.toNat).map fun i => memory (span.data + i)

/-- Write the values from the start of the span. -/
def Span.store (span : Span) (values : List α) (memory : Memory α) : Memory α := fun address =>
  if span.data ≤ address then (values[address - span.data]?).getD (memory address) else memory address

def Span.subspan (span : Span) (offset count : UInt64) : Except Exc Span :=
  if offset.toNat + count.toNat ≤ span.size.toNat then .ok ⟨span.data + offset.toNat, count⟩ else .error .undefined

structure Job where
  output : Span
  input : Span
  weight : Span
  bias : Span
  inputChannels : UInt64
  outputChannels : UInt64
deriving DecidableEq, Repr

/-- `Job{}`. -/
def Job.empty : Job := ⟨.empty, .empty, .empty, .empty, 0, 0⟩

def Job.check (job : Job) : Except Exc Unit := do
  throwIf (job.inputChannels ≠ 0 ∧ sizeMax / job.inputChannels < job.outputChannels)
    (.overflowError "linear executor weight size overflow")
  throwIf (job.output.size ≠ job.outputChannels ∨ job.input.size ≠ job.inputChannels ∨
      job.weight.size ≠ job.inputChannels * job.outputChannels ∨
      (job.bias.size ≠ 0 ∧ job.bias.size ≠ job.outputChannels))
    (.invalidArgument "linear executor tensor size mismatch")

/-- The output shares no float with the spans the same call only reads, as in every call of a session. -/
def Job.Separate (job : Job) : Prop :=
  ∀ address, job.output.Covers address →
    ¬job.input.Covers address ∧ ¬job.weight.Covers address ∧ ¬job.bias.Covers address

def minWeightFloatsPerThread : UInt64 := 65536

def Parallel (totalThreads : UInt64) (job : Job) : Prop :=
  ¬(totalThreads = 1 ∨ job.outputChannels < totalThreads ∨ job.weight.size / totalThreads < minWeightFloatsPerThread)

instance (totalThreads : UInt64) (job : Job) : Decidable (Parallel totalThreads job) :=
  inferInstanceAs (Decidable (¬_))

/-- The first output channel of a shard and their number. -/
def shardRange (totalThreads outputChannels shard : UInt64) : UInt64 × UInt64 :=
  let block := outputChannels / totalThreads
  let remainder := outputChannels % totalThreads
  (shard * block + min shard remainder, block + if shard < remainder then 1 else 0)

variable [Scalar α]

/-- `kernels::linear(output, input, weight, bias, 1, …)` on the floats the spans name. -/
def linearOn (output input weight bias : Span) (inputChannels outputChannels : UInt64) (memory : Memory α) :
    Except Exc (Memory α) := do
  let values ← linear (output.values memory) (input.values memory) (weight.values memory) (bias.values memory) 1
    inputChannels outputChannels
  pure (output.store values memory)

def Job.scalar (job : Job) (memory : Memory α) : Except Exc (Memory α) :=
  linearOn job.output job.input job.weight job.bias job.inputChannels job.outputChannels memory

def biasSubspan (bias : Span) (first count : UInt64) : Except Exc Span :=
  if bias.size = 0 then .ok .empty else bias.subspan first count

def runShard (totalThreads : UInt64) (job : Job) (shard : UInt64) (memory : Memory α) : Except Exc (Memory α) :=
  let (first, count) := shardRange totalThreads job.outputChannels shard
  if count = 0 then .ok memory
  else do
    let weightFirst := first * job.inputChannels
    let weightCount := count * job.inputChannels
    let bias ← biasSubspan job.bias first count
    let output ← job.output.subspan first count
    let weight ← job.weight.subspan weightFirst weightCount
    linearOn output job.input weight bias job.inputChannels count memory

/-- `linear` on a checked job while nothing else runs: the shards one after the other, or the fallback. -/
def Job.call (totalThreads : UInt64) (job : Job) (memory : Memory α) : Except Exc (Memory α) :=
  if Parallel totalThreads job then
    forN totalThreads.toNat memory fun shard memory => runShard totalThreads job (UInt64.ofNat shard) memory
  else job.scalar memory

/-- The value the kernel computes for an output channel. -/
def Job.channel (job : Job) (memory : Memory α) (outChannel : Nat) : α :=
  linearRow job.inputChannels.toNat (fun i => memory (job.input.data + i))
    (fun o i => memory (job.weight.data + (o * job.inputChannels.toNat + i)))
    (fun o => if job.bias.size = 0 then 0 else memory (job.bias.data + o)) outChannel

/-- One iteration of the kernel's loop: compute the channel's value and write it. -/
def Job.write (job : Job) (outChannel : Nat) (memory : Memory α) : Memory α :=
  Function.update memory (job.output.data + outChannel) (job.channel memory outChannel)

def shardFirst (totalThreads : UInt64) (job : Job) (shard : Nat) : Nat :=
  (shardRange totalThreads job.outputChannels (UInt64.ofNat shard)).1.toNat

def shardCount (totalThreads : UInt64) (job : Job) (shard : Nat) : Nat :=
  (shardRange totalThreads job.outputChannels (UInt64.ofNat shard)).2.toNat

/-! ## Threads -/

inductive Thread where
  | worker (shard : Nat)
  | submitter (i : Nat)
  | main
deriving DecidableEq, Repr

/-- Where a worker stands. -/
inductive WorkerPc where
  | unstarted
  /-- Takes `state_mutex_` next, to test the predicate of `work_ready_`. -/
  | entering
  | testing
  /-- In the wait set of `work_ready_`. -/
  | asleep
  /-- In `run_shard`, with so many channels written. -/
  | running (current : Job) (written : Nat)
  /-- Takes `state_mutex_` next, to record the completion. -/
  | finishing (error : Option Exc)
  | recording (error : Option Exc)
  /-- Calls `work_done_.notify_one()` next. -/
  | notifying
  | exited

structure Worker where
  pc : WorkerPc
  observedGeneration : UInt64

/-- Where a submitter stands. From `admitted` to `returning` it holds `submit_mutex_`. -/
inductive Submitter where
  | outside
  /-- Takes `submit_mutex_` next. -/
  | entering (job : Job)
  | admitted (job : Job)
  /-- In the scalar fallback, with so many channels written. -/
  | scalar (job : Job) (written : Nat)
  | publishing (job : Job)
  /-- Calls `work_ready_.notify_all()` next. -/
  | notifying (job : Job)
  | notified (job : Job)
  | running (job : Job) (written : Nat)
  /-- Takes `state_mutex_` next, to test the predicate of `work_done_`. -/
  | joining (callerError : Option Exc)
  | testing (callerError : Option Exc)
  /-- In the wait set of `work_done_`. -/
  | asleep (callerError : Option Exc)
  | returning (callerError workerError : Option Exc)

/-- Where the thread that constructs and destroys the executor stands. -/
inductive Main where
  | constructing
  | ready
  /-- Takes `state_mutex_` next, to set `stopping_`. -/
  | stopping
  | setting
  /-- Calls `work_ready_.notify_all()` next. -/
  | notifying
  /-- Joins the worker of this shard next. -/
  | joining (shard : Nat)
  | stopped

structure State (α : Type) where
  memory : Memory α
  submitMutex : Option Nat
  stateMutex : Option Thread
  job : Job
  workerError : Option Exc
  generation : UInt64
  completed : UInt64
  stopping : Bool
  /-- `workers_.size()`. -/
  started : Nat
  workers : Nat → Worker
  submitters : Nat → Submitter
  main : Main

/-- Before the constructor starts a thread. -/
def init (memory : Memory α) : State α where
  memory
  submitMutex := none
  stateMutex := none
  job := .empty
  workerError := none
  generation := 0
  completed := 0
  stopping := false
  started := 0
  workers _ := ⟨.unstarted, 0⟩
  submitters _ := .outside
  main := .constructing

def State.setWorker (s : State α) (w : Nat) (pc : WorkerPc) (observed : UInt64) : State α :=
  { s with workers := Function.update s.workers w ⟨pc, observed⟩ }

def State.setSubmitter (s : State α) (i : Nat) (pc : Submitter) : State α :=
  { s with submitters := Function.update s.submitters i pc }

/-- The wait sets. -/
def State.workReady (s : State α) (w : Nat) : Prop := (s.workers w).pc = .asleep

def State.workDone (s : State α) (i : Nat) : Prop := ∃ e, s.submitters i = .asleep e

def Worker.wake (worker : Worker) : Worker :=
  match worker.pc with
  | .asleep => { worker with pc := .entering }
  | _ => worker

/-- `work_ready_.notify_all()`. -/
def State.notifyReady (s : State α) : State α := { s with workers := fun w => (s.workers w).wake }

def Submitter.wake : Submitter → Submitter
  | .asleep e => .joining e
  | p => p

/-- `work_done_.notify_one()` waking submitter `i`. -/
def State.notifyDone (s : State α) (i : Nat) : State α := s.setSubmitter i (s.submitters i).wake

/-- What `linear` does with the two exception pointers. -/
def outcome (callerError workerError : Option Exc) : Except Exc Unit :=
  match callerError, workerError with
  | some e, _ => .error e
  | none, some e => .error e
  | none, none => .ok ()

/-! ## Steps -/

/-- What a step shows: the order in which `submit_mutex_` is taken, the writes, and where shards begin,
end and are recorded. -/
inductive Event where
  | acquire (i : Nat) (job : Job)
  | scalarWrite (i : Nat)
  | publish (i : Nat)
  | begin (thread : Thread) (shard : Nat) (job : Job)
  | write (shard : Nat)
  | finish (shard : Nat) (error : Option Exc)
  | record (shard : Nat) (error : Option Exc)
  | return (i : Nat) (result : Except Exc Unit)
deriving DecidableEq

/-- The exceptions an execution of a shard of a job may throw. -/
abbrev Throws := Job → Nat → Exc → Prop

/-- The exceptions `run_shard` itself throws. -/
def shardThrows (α : Type) [Scalar α] (totalThreads : UInt64) : Throws := fun job shard e =>
  ∃ memory : Memory α, runShard totalThreads job (UInt64.ofNat shard) memory = .error e

variable (totalThreads : UInt64) (throws : Throws)

inductive WorkerStep (w : Nat) (s : State α) : Option Event → State α → Prop
  | lock {o : UInt64} (hpc : s.workers w = ⟨.entering, o⟩) (hfree : s.stateMutex = none) :
      WorkerStep w s none { s.setWorker w .testing o with stateMutex := some (.worker w) }
  | wait {o : UInt64} (hpc : s.workers w = ⟨.testing, o⟩) (hpred : ¬(s.stopping = true ∨ s.generation ≠ o)) :
      WorkerStep w s none { s.setWorker w .asleep o with stateMutex := none }
  | exit {o : UInt64} (hpc : s.workers w = ⟨.testing, o⟩) (hstop : s.stopping = true) :
      WorkerStep w s none { s.setWorker w .exited o with stateMutex := none }
  | take {o : UInt64} (hpc : s.workers w = ⟨.testing, o⟩) (hstop : s.stopping = false) (hgen : s.generation ≠ o) :
      WorkerStep w s (some (.begin (.worker w) w s.job))
        { s.setWorker w (.running s.job 0) s.generation with stateMutex := none }
  | write {o : UInt64} {job : Job} {c : Nat} (hpc : s.workers w = ⟨.running job c, o⟩)
      (hc : c < shardCount totalThreads job w) :
      WorkerStep w s (some (.write w))
        { s.setWorker w (.running job (c + 1)) o with memory := job.write (shardFirst totalThreads job w + c) s.memory }
  | finish {o : UInt64} {job : Job} {c : Nat} (hpc : s.workers w = ⟨.running job c, o⟩)
      (hc : c = shardCount totalThreads job w) :
      WorkerStep w s (some (.finish w none)) (s.setWorker w (.finishing none) o)
  | throw {o : UInt64} {job : Job} {c : Nat} {e : Exc} (hpc : s.workers w = ⟨.running job c, o⟩) (he : throws job w e) :
      WorkerStep w s (some (.finish w (some e))) (s.setWorker w (.finishing (some e)) o)
  | lockDone {o : UInt64} {error : Option Exc} (hpc : s.workers w = ⟨.finishing error, o⟩) (hfree : s.stateMutex = none) :
      WorkerStep w s none { s.setWorker w (.recording error) o with stateMutex := some (.worker w) }
  | record {o : UInt64} {error : Option Exc} (hpc : s.workers w = ⟨.recording error, o⟩) :
      WorkerStep w s (some (.record w error))
        { s.setWorker w .notifying o with
          stateMutex := none, workerError := s.workerError.or error, completed := s.completed + 1 }
  | notifyOne {o : UInt64} {i : Nat} (hpc : s.workers w = ⟨.notifying, o⟩) (hi : s.workDone i) :
      WorkerStep w s none ((s.setWorker w .entering o).notifyDone i)
  | notifyNone {o : UInt64} (hpc : s.workers w = ⟨.notifying, o⟩) (hi : ∀ i, ¬s.workDone i) :
      WorkerStep w s none (s.setWorker w .entering o)

inductive SubmitterStep (i : Nat) (s : State α) : Option Event → State α → Prop
  | acquire {job : Job} (hpc : s.submitters i = .entering job) (hfree : s.submitMutex = none) :
      SubmitterStep i s (some (.acquire i job)) { s.setSubmitter i (.admitted job) with submitMutex := some i }
  | fallback {job : Job} (hpc : s.submitters i = .admitted job) (hpar : ¬Parallel totalThreads job) :
      SubmitterStep i s none (s.setSubmitter i (.scalar job 0))
  | scalarWrite {job : Job} {c : Nat} (hpc : s.submitters i = .scalar job c) (hc : c < job.outputChannels.toNat) :
      SubmitterStep i s (some (.scalarWrite i)) { s.setSubmitter i (.scalar job (c + 1)) with memory := job.write c s.memory }
  | scalarReturn {job : Job} {c : Nat} (hpc : s.submitters i = .scalar job c) (hc : c = job.outputChannels.toNat) :
      SubmitterStep i s (some (.return i (.ok ()))) { s.setSubmitter i .outside with submitMutex := none }
  | lock {job : Job} (hpc : s.submitters i = .admitted job) (hpar : Parallel totalThreads job) (hfree : s.stateMutex = none) :
      SubmitterStep i s none { s.setSubmitter i (.publishing job) with stateMutex := some (.submitter i) }
  | publish {job : Job} (hpc : s.submitters i = .publishing job) :
      SubmitterStep i s (some (.publish i))
        { s.setSubmitter i (.notifying job) with
          stateMutex := none, job, completed := 0, workerError := none, generation := s.generation + 1 }
  | notifyAll {job : Job} (hpc : s.submitters i = .notifying job) :
      SubmitterStep i s none (s.setSubmitter i (.notified job)).notifyReady
  | begin {job : Job} (hpc : s.submitters i = .notified job) :
      SubmitterStep i s (some (.begin (.submitter i) 0 job)) (s.setSubmitter i (.running job 0))
  | write {job : Job} {c : Nat} (hpc : s.submitters i = .running job c) (hc : c < shardCount totalThreads job 0) :
      SubmitterStep i s (some (.write 0))
        { s.setSubmitter i (.running job (c + 1)) with memory := job.write (shardFirst totalThreads job 0 + c) s.memory }
  | finish {job : Job} {c : Nat} (hpc : s.submitters i = .running job c) (hc : c = shardCount totalThreads job 0) :
      SubmitterStep i s (some (.finish 0 none)) (s.setSubmitter i (.joining none))
  | throw {job : Job} {c : Nat} {e : Exc} (hpc : s.submitters i = .running job c) (he : throws job 0 e) :
      SubmitterStep i s (some (.finish 0 (some e))) (s.setSubmitter i (.joining (some e)))
  | lockDone {e : Option Exc} (hpc : s.submitters i = .joining e) (hfree : s.stateMutex = none) :
      SubmitterStep i s none { s.setSubmitter i (.testing e) with stateMutex := some (.submitter i) }
  | wait {e : Option Exc} (hpc : s.submitters i = .testing e) (hpred : s.completed ≠ UInt64.ofNat s.started) :
      SubmitterStep i s none { s.setSubmitter i (.asleep e) with stateMutex := none }
  | collect {e : Option Exc} (hpc : s.submitters i = .testing e) (hpred : s.completed = UInt64.ofNat s.started) :
      SubmitterStep i s none { s.setSubmitter i (.returning e s.workerError) with stateMutex := none, job := .empty }
  | return {e e' : Option Exc} (hpc : s.submitters i = .returning e e') :
      SubmitterStep i s (some (.return i (outcome e e'))) { s.setSubmitter i .outside with submitMutex := none }

inductive MainStep (s : State α) : Option Event → State α → Prop
  | start (hpc : s.main = .constructing) (hmore : s.started + 1 < totalThreads.toNat) :
      MainStep s none { s.setWorker (s.started + 1) .entering 0 with started := s.started + 1 }
  /-- Starting a thread throws: the constructor calls `stop_workers`. -/
  | fail (hpc : s.main = .constructing) (hmore : s.started + 1 < totalThreads.toNat) :
      MainStep s none { s with main := .stopping }
  | complete (hpc : s.main = .constructing) (hall : ¬s.started + 1 < totalThreads.toNat) :
      MainStep s none { s with main := .ready }
  | lock (hpc : s.main = .stopping) (hfree : s.stateMutex = none) :
      MainStep s none { s with main := .setting, stateMutex := some .main }
  | set (hpc : s.main = .setting) :
      MainStep s none { s with main := .notifying, stateMutex := none, stopping := true }
  | notifyAll (hpc : s.main = .notifying) :
      MainStep s none { s.notifyReady with main := .joining 1 }
  | join {w : Nat} (hpc : s.main = .joining w) (hw : w ≤ s.started) (hexit : (s.workers w).pc = .exited) :
      MainStep s none { s with main := .joining (w + 1) }
  | joined {w : Nat} (hpc : s.main = .joining w) (hw : s.started < w) :
      MainStep s none { s with main := .stopped }

/-- A step of one of the executor's threads. -/
inductive Step (s : State α) (l : Option Event) (s' : State α) : Prop
  | worker (w : Nat) (h : WorkerStep totalThreads throws w s l s')
  | submitter (i : Nat) (h : SubmitterStep totalThreads throws i s l s')
  | main (h : MainStep totalThreads s l s')

/-- What the callers decide: to call `linear` once the executor is constructed, and to destroy it while no
call is in progress. -/
inductive Environment (s : State α) : State α → Prop
  | call {i : Nat} {job : Job} (hready : s.main = .ready) (hpc : s.submitters i = .outside)
      (hcheck : job.check = .ok ()) : Environment s (s.setSubmitter i (.entering job))
  | destroy (hready : s.main = .ready) (hout : ∀ i, s.submitters i = .outside) : Environment s { s with main := .stopping }

/-- The executor and its callers. -/
def system : System (State α) Event where
  step s l s' := Step totalThreads throws s l s' ∨ (l = none ∧ Environment s s')

end LinearExecutor

end Gpt2Runtime
