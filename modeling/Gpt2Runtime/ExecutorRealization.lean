import Gpt2Runtime.ExecutorSteps
/-
# The executor can do whatever the serial machine can

The converse of the refinement: each event of the serial machine is shown by a few steps of a new executor
that take every lock while it is free and never wait (`serial_realizable`). Between two events such a run
is `Rested`: no thread is inside a critical section, about to notify or in a wait set.
-/

namespace Gpt2Runtime.LinearExecutor

open Loop Flat Word Kernels Lts

variable {α : Type}

def WorkerPc.Rested : WorkerPc → Prop
  | .unstarted | .entering | .running _ _ | .finishing _ => True
  | _ => False

def Submitter.Rested : Submitter → Prop
  | .outside | .admitted _ | .scalar _ _ | .notified _ | .running _ _ | .joining _ => True
  | _ => False

structure Rested (s : State α) : Prop where
  main : s.main = .ready
  stateMutex : s.stateMutex = none
  workers : ∀ w, (s.workers w).pc.Rested
  submitters : ∀ i, (s.submitters i).Rested
  callers : ∀ i, s.submitMutex ≠ some i → s.submitters i = .outside

namespace Rested

variable {s : State α}

/-- A worker moves from rest to rest. -/
theorem worker (h : Rested s) {s' : State α} {w : Nat} (hmain : s'.main = .ready) (hmutex : s'.stateMutex = none)
    (hw : (s'.workers w).pc.Rested) (hother : ∀ w', w' ≠ w → s'.workers w' = s.workers w')
    (hsubmitters : s'.submitters = s.submitters) (hsubmit : s'.submitMutex = s.submitMutex) : Rested s' := by
  refine ⟨hmain, hmutex, fun w' => ?_, by rw [hsubmitters]; exact h.submitters, by rw [hsubmitters, hsubmit]; exact h.callers⟩
  by_cases heq : w' = w
  · subst heq
    exact hw
  · rw [hother w' heq]
    exact h.workers w'

/-- The holder of `submit_mutex_`, or the submitter that takes it, moves from rest to rest. -/
theorem submitter (h : Rested s) {s' : State α} {i : Nat} (hmain : s'.main = .ready) (hmutex : s'.stateMutex = none)
    (hworkers : s'.workers = s.workers) (hi : (s'.submitters i).Rested)
    (hother : ∀ j, j ≠ i → s'.submitters j = s.submitters j) (hholder : ∀ j, j ≠ i → s.submitMutex ≠ some j)
    (hself : s'.submitMutex ≠ some i → s'.submitters i = .outside) : Rested s' := by
  refine ⟨hmain, hmutex, by rw [hworkers]; exact h.workers, fun j => ?_, fun j hj => ?_⟩
  · by_cases heq : j = i
    · subst heq
      exact hi
    · rw [hother j heq]
      exact h.submitters j
  · by_cases heq : j = i
    · subst heq
      exact hself hj
    · rw [hother j heq]
      exact h.callers j (hholder j heq)

theorem notifyReady (h : Rested s) : s.notifyReady = s := by
  have hworkers : s.notifyReady.workers = s.workers := by
    funext w
    have hw := h.workers w
    show (s.workers w).wake = s.workers w
    unfold Worker.wake
    split
    · next hpc => rw [hpc] at hw; exact hw.elim
    · rfl
  unfold State.notifyReady at hworkers ⊢
  rw [show (fun w => (s.workers w).wake) = s.workers from hworkers]

theorem workDone (h : Rested s) (i : Nat) : ¬s.workDone i := by
  rintro ⟨e, he⟩
  have hi := h.submitters i
  rw [he] at hi
  exact hi

end Rested

/-! ## The serial machine is deterministic in its events -/

section

variable [Scalar α] {totalThreads : UInt64} {throws : Throws} {s : State α} {a a' a'' : Serial α} {e : Event}

theorem SerialStep.unique (h : SerialStep totalThreads throws a e a') (h' : SerialStep totalThreads throws a e a'') :
    a' = a'' := by
  cases h with
  | acquire hcheck => cases h'; rfl
  | scalarWrite hpar hc => cases h'; rfl
  | scalarReturn hpar hc => cases h'; rfl
  | publish hpar => cases h'; rfl
  | begin hshard hs =>
    generalize hevent : Event.begin _ _ _ = event at h'
    cases h' with
    | begin hshard' hs' =>
      injection hevent with hthread heq
      subst heq
      rfl
    | _ => cases hevent
  | write hshard hs hc =>
    cases h' with
    | write hshard' hs' hc' =>
      rw [hs] at hs'
      cases hs'
      rfl
  | finish hshard hs hok herr =>
    cases h' with
    | finish hshard' hs' hok' herr' =>
      rw [hs] at hs'
      cases hs'
      rfl
  | record hshard hworker hs =>
    cases h' with
    | record hshard' hworker' hs' =>
      rw [hs] at hs'
      cases hs'
      rfl
  | «return» hall =>
    generalize hevent : Event.return _ _ = event at h'
    cases h' with
    | «return» hall' => rfl
    | _ => cases hevent

theorem serialStep_of_run {t : List Event} (h : Run (serial totalThreads throws) a t a') (ht : t = [e]) :
    SerialStep totalThreads throws a e a' := by
  cases h with
  | refl => cases ht
  | @step t s' _ l h hl =>
    obtain ⟨e', rfl, he⟩ := hl
    obtain ⟨ht', he'⟩ := List.append_inj' (show t ++ [e'] = [] ++ [e] from ht) rfl
    cases he'
    have hstart : a = s' := h.eq_of_nil (fun _ _ hs => by obtain ⟨e, he, -⟩ := hs; cases he) ht'
    rw [hstart]
    exact he

theorem serial_silent {s s' : Serial α} : ¬(serial totalThreads throws).step s none s' := by
  rintro ⟨e, he, -⟩
  cases he

/-- A run of the executor that shows nothing stays with the state of the serial machine. -/
theorem Tracks.of_silent {s' : State α} (h : Tracks totalThreads s a) (hrun : Run (system totalThreads throws) s [] s') :
    Tracks totalThreads s' a := by
  obtain ⟨a'', hserial, htracks⟩ := hrun.simulate (fun _ _ _ _ hR hl => Tracks.step hR hl) h
  rwa [hserial.eq_of_nil (fun _ _ => serial_silent) rfl]

/-- A run of the executor that shows one event tracks that step of the serial machine. -/
theorem Tracks.of_run {s' : State α} (h : Tracks totalThreads s a) (hrun : Run (system totalThreads throws) s [e] s')
    (he : SerialStep totalThreads throws a e a') : Tracks totalThreads s' a' := by
  obtain ⟨a'', hserial, htracks⟩ := hrun.simulate (fun _ _ _ _ hR hl => Tracks.step hR hl) h
  rwa [he.unique (serialStep_of_run hserial rfl)]

theorem system_worker {s s' : State α} {w : Nat} {l : Option Event} (h : WorkerStep totalThreads throws w s l s') :
    (system totalThreads throws).step s l s' := .inl (.worker w h)

theorem system_submitter {s s' : State α} {i : Nat} {l : Option Event} (h : SubmitterStep totalThreads throws i s l s') :
    (system totalThreads throws).step s l s' := .inl (.submitter i h)

theorem system_main {s s' : State α} {l : Option Event} (h : MainStep totalThreads s l s') :
    (system totalThreads throws).step s l s' := .inl (.main h)

theorem system_environment {s s' : State α} (h : Environment s s') : (system totalThreads throws).step s none s' :=
  .inr ⟨rfl, h⟩

/-! ## One event -/

/-- The executor has just shown what the serial machine has, and rests. -/
structure Matches (totalThreads : UInt64) (a : Serial α) (s : State α) : Prop where
  tracks : Tracks totalThreads s a
  rested : Rested s

variable {m : Memory α} {r : Round} {i w : Nat} {job : Job} {c : Nat}

omit [Scalar α] in
theorem Matches.callers (h : Matches totalThreads ⟨m, .idle⟩ s) (i : Nat) : s.submitters i = .outside :=
  h.rested.callers i (by rw [h.tracks.submitMutex]; exact Phase.holder_idle i)

omit [Scalar α] in
/-- A resting submitter that has the executor and has not published. -/
theorem Matches.admitted (h : Matches totalThreads ⟨m, .admitted i job c⟩ s) :
    (s.submitters i = .admitted job ∧ c = 0) ∨ (s.submitters i = .scalar job c ∧ ¬Parallel totalThreads job) := by
  have hok := h.tracks.submitters i
  have hrest := h.rested.submitters i
  cases hpc : s.submitters i with
  | outside => rw [hpc] at hok; exact absurd rfl hok
  | entering job' => rw [hpc] at hrest; exact hrest.elim
  | admitted job' => rw [hpc] at hok; cases hok; exact .inl ⟨rfl, rfl⟩
  | scalar job' c' => rw [hpc] at hok; obtain ⟨hphase, hpar⟩ := hok; cases hphase; exact .inr ⟨rfl, hpar⟩
  | publishing job' | notifying job' | testing e | asleep e | returning e e' => rw [hpc] at hrest; exact hrest.elim
  | notified job' | running job' c' | joining e =>
    rw [hpc] at hok
    obtain ⟨r, hphase, -⟩ := hok
    cases hphase

omit [Scalar α] in
/-- A resting submitter of a round stands where shard 0 is. -/
theorem Matches.caller (h : Matches totalThreads ⟨m, .round r⟩ s) :
    match r.shards 0 with
    | .pending => s.submitters r.submitter = .notified r.job
    | .running c => s.submitters r.submitter = .running r.job c
    | .ended _ e => s.submitters r.submitter = .joining e
    | .recorded _ _ => False := by
  have hok := h.tracks.submitters r.submitter
  have hrest := h.rested.submitters r.submitter
  cases hpc : s.submitters r.submitter with
  | outside => rw [hpc] at hok; exact absurd rfl hok
  | entering job => rw [hpc] at hok; exact absurd rfl hok.1
  | admitted job => rw [hpc] at hok; cases hok
  | scalar job c => rw [hpc] at hok; cases hok.1
  | publishing job | notifying job | testing e | asleep e | returning e e' => rw [hpc] at hrest; exact hrest.elim
  | notified job | running job c =>
    rw [hpc] at hok
    obtain ⟨r', hphase, -, hjob, hshard⟩ := hok
    cases hphase
    rw [hshard, hjob]
  | joining e =>
    rw [hpc] at hok
    obtain ⟨r', hphase, -, c, hshard⟩ := hok
    cases hphase
    rw [hshard]

omit [Scalar α] in
/-- A resting worker of a round stands where its shard is. -/
theorem Matches.worker (h : Matches totalThreads ⟨m, .round r⟩ s) (hw : 0 < w) (hlt : w < totalThreads.toNat) :
    match r.shards w with
    | .pending => ∃ o, s.workers w = ⟨.entering, o⟩ ∧ s.generation ≠ o
    | .running c => s.workers w = ⟨.running r.job c, s.generation⟩
    | .ended _ e => s.workers w = ⟨.finishing e, s.generation⟩
    | .recorded _ _ => True := by
  have hstarted := h.tracks.started_of_round
  have hok := h.tracks.workers w
  have hrest := h.rested.workers w
  cases hworker : s.workers w with
  | mk pc o =>
    rw [hworker] at hok hrest
    cases pc with
    | unstarted => exact absurd ((h.tracks.unstarted w).1 (by rw [hworker])) (by omega)
    | testing | asleep | recording e | notifying | exited => exact hrest.elim
    | entering =>
      rcases hok with ⟨r', hphase, hshard, ho⟩ | ⟨-, hfinal⟩
      · cases hphase
        rw [hshard]
        refine ⟨o, rfl, ?_⟩
        rw [← show o + 1 = s.generation from ho]
        exact fun h' => by simp at h'
      · have := hfinal r rfl
        cases hshard : r.shards w with
        | pending => rw [hshard] at this; exact this.elim
        | running c => rw [hshard] at this; exact this.elim
        | ended c e => rw [hshard] at this; exact absurd this (Nat.ne_of_gt hw)
        | recorded c e => trivial
    | running job c =>
      obtain ⟨ho, r', hphase, rfl, hshard⟩ := hok
      cases hphase
      rw [hshard]
      exact congrArg _ ho
    | finishing e =>
      obtain ⟨ho, r', hphase, c, hshard⟩ := hok
      cases hphase
      rw [hshard]
      exact congrArg _ ho

omit [Scalar α] in
theorem Matches.holder {phase : Phase} (h : Matches totalThreads ⟨m, phase⟩ s) (hi : phase.holder = some i) {j : Nat}
    (hj : j ≠ i) : s.submitMutex ≠ some j := by
  rw [h.tracks.submitMutex]
  show phase.holder ≠ some j
  rw [hi]
  exact fun h' => hj (Option.some.inj h').symm

variable (throws) in
/-- The submitter turns to the fallback, if it has not yet. -/
theorem Matches.to_scalar (h : Matches totalThreads ⟨m, .admitted i job c⟩ s) (hpar : ¬Parallel totalThreads job) :
    ∃ s', Run (system totalThreads throws) s [] s' ∧ s'.submitters i = .scalar job c ∧
      Matches totalThreads ⟨m, .admitted i job c⟩ s' := by
  rcases h.admitted with ⟨hpc, rfl⟩ | ⟨hpc, -⟩
  · have hrun : Run (system totalThreads throws) s [] _ := Run.refl.silent (system_submitter (.fallback hpc hpar))
    refine ⟨_, hrun, State.setSubmitter_self _ _ _, h.tracks.of_silent hrun, ?_⟩
    refine h.rested.submitter (i := i) h.rested.main h.rested.stateMutex rfl ?_ (fun j hj => State.setSubmitter_of_ne hj)
      (fun j hj => h.holder rfl hj) fun hne => absurd h.tracks.submitMutex hne
    rw [State.setSubmitter_self]
    trivial
  · exact ⟨s, .refl, hpc, h⟩

/-- **An event that belongs to no shard.** -/
theorem Matches.realize_submission (h : Matches totalThreads a s) (he : SerialStep totalThreads throws a e a')
    (hshard : e.shard? = none) : ∃ s', Run (system totalThreads throws) s [e] s' ∧ Matches totalThreads a' s' := by
  have hready := h.rested.main
  have hfree := h.rested.stateMutex
  cases he with
  | @acquire m i job hcheck =>
    have hsubmit : s.submitMutex = none := h.tracks.submitMutex
    have hcall := (Run.refl (A := system totalThreads throws)).silent
      (system_environment (.call hready (h.callers i) hcheck))
    have hrun := hcall.visible (system_submitter (.acquire (State.setSubmitter_self _ _ _) hsubmit))
    refine ⟨_, hrun, h.tracks.of_run hrun (.acquire hcheck), ?_⟩
    refine h.rested.submitter (i := i) hready hfree rfl (by simp only [State.setSubmitter_self]; trivial) (fun j hj => ?_)
      (fun j _ => by rw [hsubmit]; simp) (fun h' => absurd rfl h')
    exact (State.setSubmitter_of_ne hj).trans (State.setSubmitter_of_ne hj)
  | @scalarWrite m i job c hpar hc =>
    obtain ⟨s₁, hrun₁, hpc, h₁⟩ := h.to_scalar throws hpar
    have hrun := hrun₁.visible (system_submitter (.scalarWrite hpc hc))
    refine ⟨_, hrun, h.tracks.of_run hrun (.scalarWrite hpar hc), ?_⟩
    refine h₁.rested.submitter (i := i) h₁.rested.main h₁.rested.stateMutex rfl ?_ (fun j hj => State.setSubmitter_of_ne hj)
      (fun j hj => h₁.holder rfl hj) fun hne => absurd h₁.tracks.submitMutex hne
    simp only [State.setSubmitter_self]
    trivial
  | @scalarReturn m i job c hpar hc =>
    obtain ⟨s₁, hrun₁, hpc, h₁⟩ := h.to_scalar throws hpar
    have hrun := hrun₁.visible (system_submitter (.scalarReturn hpc hc))
    refine ⟨_, hrun, h.tracks.of_run hrun (.scalarReturn hpar hc), ?_⟩
    refine h₁.rested.submitter (i := i) h₁.rested.main h₁.rested.stateMutex rfl ?_ (fun j hj => State.setSubmitter_of_ne hj)
      (fun j hj => h₁.holder rfl hj) fun _ => State.setSubmitter_self _ _ _
    simp only [State.setSubmitter_self]
    trivial
  | @publish m i job hpar =>
    have hpc : s.submitters i = .admitted job := by
      rcases h.admitted with ⟨hpc, -⟩ | ⟨-, hseq⟩
      · exact hpc
      · exact absurd hpar hseq
    have hlock := (Run.refl (A := system totalThreads throws)).silent (system_submitter (.lock hpc hpar hfree))
    have hpublish := hlock.visible (system_submitter (.publish (State.setSubmitter_self _ _ _)))
    have hrun := hpublish.silent (system_submitter (.notifyAll (State.setSubmitter_self _ _ _)))
    refine ⟨_, hrun, h.tracks.of_run hrun (.publish hpar), ?_⟩
    have hwake : ∀ w, (s.workers w).wake = s.workers w := fun w => congrFun (congrArg State.workers h.rested.notifyReady) w
    refine h.rested.submitter (i := i) hready rfl (funext hwake) ?_ (fun j hj => ?_)
      (fun j hj => h.holder rfl hj) fun hne => absurd h.tracks.submitMutex hne
    · simp only [State.notifyReady, State.setSubmitter_self]
      trivial
    · exact (State.setSubmitter_of_ne hj).trans ((State.setSubmitter_of_ne hj).trans (State.setSubmitter_of_ne hj))
  | begin => cases hshard
  | write => cases hshard
  | finish => cases hshard
  | record => cases hshard
  | @«return» m r hall =>
    have hfinal := hall 0 h.tracks.pos
    have hcaller := h.caller
    cases hs : r.shards 0 with
    | pending => rw [hs] at hfinal; exact hfinal.elim
    | running c => rw [hs] at hfinal; exact hfinal.elim
    | recorded c e => rw [hs] at hcaller; exact hcaller.elim
    | ended c error =>
      rw [hs] at hcaller
      obtain ⟨hcount, herror⟩ := h.tracks.round r rfl
      have hstarted := h.tracks.started_of_round
      -- every worker has recorded, so the predicate of `work_done_` holds
      have hcompleted : s.completed = UInt64.ofNat s.started := by
        have hrecorded : r.recordedCount s.started = s.started := Round.recordedCount_eq_iff.2 fun w hw hle =>
          (Shard.final_iff (Nat.ne_of_gt hw) _).1 (hall w (by omega))
        rw [← UInt64.ofNat_toNat (x := s.completed), hcount, hrecorded]
      have hlock := (Run.refl (A := system totalThreads throws)).silent (system_submitter (.lockDone hcaller hfree))
      have hcollect := hlock.silent (system_submitter (.collect (State.setSubmitter_self _ _ _) hcompleted))
      have hreturn := hcollect.visible (system_submitter (.return (State.setSubmitter_self _ _ _)))
      have hstep : SerialStep totalThreads throws ⟨m, .round r⟩ (.return r.submitter (outcome error s.workerError)) ⟨m, .idle⟩ := by
        have hstep : SerialStep totalThreads throws ⟨m, .round r⟩
            (.return r.submitter (outcome (r.shards 0).error r.error)) ⟨m, .idle⟩ := .return hall
        rwa [hs, ← herror] at hstep
      rw [← herror]
      refine ⟨_, hreturn, h.tracks.of_run hreturn hstep, ?_⟩
      refine h.rested.submitter (i := r.submitter) hready rfl rfl ?_ (fun j hj => ?_) (fun j hj => h.holder rfl hj) fun _ => ?_
      · simp only [State.setSubmitter_self]
        trivial
      · exact (State.setSubmitter_of_ne hj).trans ((State.setSubmitter_of_ne hj).trans (State.setSubmitter_of_ne hj))
      · simp only [State.setSubmitter_self]

/-- **An event of shard 0**, by the submitter. -/
theorem Matches.realize_caller (h : Matches totalThreads a s) (he : SerialStep totalThreads throws a e a')
    (hshard : e.shard? = some 0) : ∃ s', Run (system totalThreads throws) s [e] s' ∧ Matches totalThreads a' s' := by
  -- the submitter makes one step, from rest to rest
  have hone : ∀ {m : Memory α} {r : Round} {pc : Submitter} {memory : Memory α}, Matches totalThreads ⟨m, .round r⟩ s →
      pc.Rested → Rested { s.setSubmitter r.submitter pc with memory } := by
    intro m r pc memory h hpc
    refine h.rested.submitter (i := r.submitter) h.rested.main h.rested.stateMutex rfl ?_
      (fun j hj => State.setSubmitter_of_ne hj) (fun j hj => h.holder rfl hj) fun hne => absurd h.tracks.submitMutex hne
    simp only [State.setSubmitter_self]
    exact hpc
  cases he with
  | acquire => cases hshard
  | scalarWrite => cases hshard
  | scalarReturn => cases hshard
  | publish => cases hshard
  | «return» => cases hshard
  | @begin m r shard hlt hs =>
    obtain rfl : shard = 0 := Option.some.inj hshard
    have hpc := h.caller
    rw [hs] at hpc
    have hrun := (Run.refl (A := system totalThreads throws)).visible (system_submitter (.begin hpc))
    exact ⟨_, hrun, h.tracks.of_run hrun (.begin hlt hs), hone h trivial⟩
  | @write m r shard c hlt hs hc =>
    obtain rfl : shard = 0 := Option.some.inj hshard
    have hpc := h.caller
    rw [hs] at hpc
    have hrun := (Run.refl (A := system totalThreads throws)).visible (system_submitter (.write hpc hc))
    exact ⟨_, hrun, h.tracks.of_run hrun (.write hlt hs hc), hone h trivial⟩
  | @finish m r shard c error hlt hs hok herr =>
    obtain rfl : shard = 0 := Option.some.inj hshard
    have hpc := h.caller
    rw [hs] at hpc
    cases error with
    | none =>
      have hrun := (Run.refl (A := system totalThreads throws)).visible (system_submitter (.finish hpc (hok rfl)))
      exact ⟨_, hrun, h.tracks.of_run hrun (.finish hlt hs hok herr), hone h trivial⟩
    | some x =>
      have hrun := (Run.refl (A := system totalThreads throws)).visible (system_submitter (.throw hpc (herr x rfl)))
      exact ⟨_, hrun, h.tracks.of_run hrun (.finish hlt hs hok herr), hone h trivial⟩
  | @record m r shard c error hlt hworker hs => exact absurd (Option.some.inj hshard) hworker

/-- **An event of another shard**, by its worker. -/
theorem Matches.realize_worker (h : Matches totalThreads a s) (he : SerialStep totalThreads throws a e a')
    (hshard : e.shard? = some w) (hw : 0 < w) :
    ∃ s', Run (system totalThreads throws) s [e] s' ∧ Matches totalThreads a' s' := by
  have hready := h.rested.main
  have hfree := h.rested.stateMutex
  cases he with
  | acquire => cases hshard
  | scalarWrite => cases hshard
  | scalarReturn => cases hshard
  | publish => cases hshard
  | «return» => cases hshard
  | @begin m r shard hlt hs =>
    obtain rfl : shard = w := Option.some.inj hshard
    have hpc := h.worker hw hlt
    rw [hs] at hpc
    obtain ⟨o, hpc, hgen⟩ := hpc
    have hjob := h.tracks.job r shard rfl hlt hs
    have hlock := (Run.refl (A := system totalThreads throws)).silent (system_worker (.lock hpc hfree))
    have hrun := hlock.visible (system_worker (.take (State.setWorker_self _ _ _ _) h.tracks.not_stopping hgen))
    have hstep : SerialStep totalThreads throws ⟨m, .round r⟩ (.begin (.worker shard) shard s.job)
        ⟨m, .round (r.set shard (.running 0))⟩ := by
      rw [← runner_worker (i := r.submitter) hw, hjob]
      exact .begin hlt hs
    rw [runner_worker hw, ← hjob]
    refine ⟨_, hrun, h.tracks.of_run hrun hstep, ?_⟩
    refine h.rested.worker (w := shard) hready rfl ?_ (fun w' hw' => ?_) rfl rfl
    · simp only [State.setWorker_self]
      trivial
    · exact (State.setWorker_of_ne hw').trans (State.setWorker_of_ne hw')
  | @write m r shard c hlt hs hc =>
    obtain rfl : shard = w := Option.some.inj hshard
    have hpc := h.worker hw hlt
    rw [hs] at hpc
    have hrun := (Run.refl (A := system totalThreads throws)).visible (system_worker (.write hpc hc))
    refine ⟨_, hrun, h.tracks.of_run hrun (.write hlt hs hc), ?_⟩
    refine h.rested.worker (w := shard) hready hfree ?_ (fun w' hw' => State.setWorker_of_ne hw') rfl rfl
    simp only [State.setWorker_self]
    trivial
  | @finish m r shard c error hlt hs hok herr =>
    obtain rfl : shard = w := Option.some.inj hshard
    have hpc := h.worker hw hlt
    rw [hs] at hpc
    have hrested : ∀ error, Rested (s.setWorker shard (.finishing error) s.generation) := by
      intro error
      refine h.rested.worker (w := shard) hready hfree ?_ (fun w' hw' => State.setWorker_of_ne hw') rfl rfl
      simp only [State.setWorker_self]
      trivial
    cases error with
    | none =>
      have hrun := (Run.refl (A := system totalThreads throws)).visible (system_worker (.finish hpc (hok rfl)))
      exact ⟨_, hrun, h.tracks.of_run hrun (.finish hlt hs hok herr), hrested none⟩
    | some x =>
      have hrun := (Run.refl (A := system totalThreads throws)).visible (system_worker (.throw hpc (herr x rfl)))
      exact ⟨_, hrun, h.tracks.of_run hrun (.finish hlt hs hok herr), hrested (some x)⟩
  | @record m r shard c error hlt hworker hs =>
    obtain rfl : shard = w := Option.some.inj hshard
    have hpc := h.worker hw hlt
    rw [hs] at hpc
    have hlock := (Run.refl (A := system totalThreads throws)).silent (system_worker (.lockDone hpc hfree))
    have hrecord := hlock.visible (system_worker (.record (State.setWorker_self _ _ _ _)))
    have hrun := hrecord.silent (system_worker (.notifyNone (State.setWorker_self _ _ _ _) h.rested.workDone))
    refine ⟨_, hrun, h.tracks.of_run hrun (.record hlt hworker hs), ?_⟩
    refine h.rested.worker (w := shard) hready rfl ?_ (fun w' hw' => ?_) rfl rfl
    · simp only [State.setWorker_self]
      trivial
    · exact (State.setWorker_of_ne hw').trans ((State.setWorker_of_ne hw').trans (State.setWorker_of_ne hw'))

theorem Matches.realize (h : Matches totalThreads a s) (he : SerialStep totalThreads throws a e a') :
    ∃ s', Run (system totalThreads throws) s [e] s' ∧ Matches totalThreads a' s' := by
  cases hshard : e.shard? with
  | none => exact h.realize_submission he hshard
  | some w =>
    cases w with
    | zero => exact h.realize_caller he hshard
    | succ w => exact h.realize_worker he hshard (Nat.succ_pos w)

/-! ## Construction -/

variable (throws) in
/-- The constructor has started so many workers. -/
theorem constructing_run (memory : Memory α) : ∀ {k : Nat}, k < totalThreads.toNat →
    ∃ s, Run (system totalThreads throws) (init memory) [] s ∧ s.main = .constructing ∧ s.started = k ∧
      s.stateMutex = none ∧ s.submitMutex = none ∧ (∀ w, (s.workers w).pc.Rested) ∧ ∀ i, s.submitters i = .outside
  | 0, _ => ⟨init memory, .refl, rfl, rfl, rfl, rfl, fun _ => trivial, fun _ => rfl⟩
  | k + 1, hk => by
    obtain ⟨s, hrun, hmain, rfl, hmutex, hsubmit, hworkers, hout⟩ := constructing_run memory (k := k) (by omega)
    refine ⟨_, hrun.silent (system_main (.start hmain hk)), hmain, rfl, hmutex, hsubmit, fun w => ?_, hout⟩
    by_cases heq : w = s.started + 1
    · subst heq
      simp only [State.setWorker_self]
      trivial
    · simp only [State.setWorker_of_ne heq]
      exact hworkers w

variable (throws) in
/-- **A new executor** can show nothing yet and rest. -/
theorem constructed_run (hpos : 0 < totalThreads.toNat) (memory : Memory α) :
    ∃ s, Run (system totalThreads throws) (init memory) [] s ∧ Matches totalThreads ⟨memory, .idle⟩ s := by
  obtain ⟨s, hrun, hmain, hstarted, hmutex, hsubmit, hworkers, hout⟩ :=
    constructing_run throws memory (show totalThreads.toNat - 1 < totalThreads.toNat by omega)
  have hcomplete : Run (system totalThreads throws) (init memory) [] _ :=
    hrun.silent (system_main (.complete hmain (by omega)))
  refine ⟨_, hcomplete, (tracks_init hpos memory).of_silent hcomplete, rfl, hmutex, hworkers, fun i => ?_, fun i _ => hout i⟩
  show (s.submitters i).Rested
  rw [hout i]
  trivial

/-- **The executor realizes the serial machine**: whatever that machine shows, a new executor can show,
and leaves the same memory. -/
theorem serial_realizable (hpos : 0 < totalThreads.toNat) {memory : Memory α} {t : List Event}
    (h : Run (serial totalThreads throws) ⟨memory, .idle⟩ t a) :
    ∃ s, Run (system totalThreads throws) (init memory) t s ∧ Matches totalThreads a s := by
  obtain ⟨s, hnew, hmatch⟩ := constructed_run throws hpos memory
  obtain ⟨s', hrun, hmatch'⟩ := h.simulate (R := Matches totalThreads) (fun a s l a' hR hl => by
    obtain ⟨e, rfl, he⟩ := hl
    exact hR.realize he) hmatch
  exact ⟨s', hnew.append hrun, hmatch'⟩

end

end Gpt2Runtime.LinearExecutor
