import Gpt2Runtime.ExecutorTermination
import Gpt2Runtime.ShardedLinear
import Gpt2Runtime.SessionRuns
/-
# Sessions on a shared executor (`session.cpp:209-221`, `linear_executor.cpp:104-160`)

| here | there |
| --- | --- |
| `Job.Names`             | the spans `consume_token` passes to `executor->linear` and the floats they name |
| `Served`                | one such call, in any interleaving with the workers and with calls from other threads |
| `Realizes`              | what a session sees of an executor with so many threads |

The other callers have buffers of their own (`Isolated`); they may be in the middle of a call when this one
starts, and their calls may come before and after it. Between entering and returning the trace of the call is
known (`call_trace`), the floats it names stay until it has the executor (`memory_frame`) and its own shards
leave what the kernel leaves (`call_memory`). So every session computes the same on every executor.
-/

namespace Gpt2Runtime

open Loop Flat Word Kernels Lts Refine

variable {α : Type}

namespace LinearExecutor

/-! ## The trace of one call -/

/-- The event is submitter `i` taking `submit_mutex_` or returning. -/
def Event.Of (i : Nat) : Event → Prop
  | .acquire j _ => j = i
  | .return j _ => j = i
  | _ => False

/-- The submitter has `submit_mutex_`. -/
def Submitter.Busy : Submitter → Prop
  | .outside | .entering _ => False
  | _ => True

theorem Submitter.busy_wake {p : Submitter} (h : p.Busy) : p.wake.Busy := by
  cases p <;> exact h

section

variable [Scalar α] {totalThreads : UInt64} {throws : Throws} {s s' : State α} {l : Option Event} {i : Nat} {job : Job}

/-- What a submitter's own step does to its call. -/
theorem SubmitterStep.own (hs : SubmitterStep totalThreads throws i s l s') :
    (∃ job, s.submitters i = .entering job ∧ l = some (.acquire i job) ∧ (s'.submitters i).Busy) ∨
      ((s.submitters i).Busy ∧ ((∃ r, l = some (.return i r)) ∨ ((s'.submitters i).Busy ∧ ∀ e, l = some e → ¬e.Of i))) := by
  cases hs with
  | @acquire job hpc _ => exact .inl ⟨job, hpc, rfl, by simp [State.setSubmitter, Submitter.Busy]⟩
  | scalarReturn hpc _ => exact .inr ⟨by rw [hpc]; trivial, .inl ⟨_, rfl⟩⟩
  | «return» hpc => exact .inr ⟨by rw [hpc]; trivial, .inl ⟨_, rfl⟩⟩
  | notifyAll hpc | fallback hpc _ | lock hpc _ _ | lockDone hpc _ | wait hpc _ | collect hpc _ =>
    refine .inr ⟨by rw [hpc]; trivial, .inr ⟨?_, ?_⟩⟩
    · simp [State.setSubmitter, State.notifyReady, Submitter.Busy]
    · intro e he
      cases he
  | scalarWrite hpc _ | publish hpc | begin hpc | write hpc _ | finish hpc _ | throw hpc _ =>
    refine .inr ⟨by rw [hpc]; trivial, .inr ⟨?_, ?_⟩⟩
    · simp [State.setSubmitter, Submitter.Busy]
    · rintro e ⟨⟩ h
      exact h

/-- Any other step of the threads leaves submitter `i` where it is, or wakes it. -/
theorem Step.of_others (i : Nat) (hs : Step totalThreads throws s l s') :
    SubmitterStep totalThreads throws i s l s' ∨
      ((s'.submitters i = s.submitters i ∨ s'.submitters i = (s.submitters i).wake) ∧ ∀ e, l = some e → ¬e.Of i) := by
  cases hs with
  | worker w hs =>
    right
    cases hs with
    | @notifyOne o j hpc hj =>
      refine ⟨?_, fun e he => nomatch he⟩
      by_cases hne : j = i
      · subst hne
        exact .inr (State.setSubmitter_self ..)
      · exact .inl (State.setSubmitter_of_ne (Ne.symm hne))
    | lock _ _ | wait _ _ | exit _ _ | lockDone _ _ | notifyNone _ _ => exact ⟨.inl rfl, fun e he => nomatch he⟩
    | take _ _ _ | write _ _ | finish _ _ | throw _ _ | record _ =>
      refine ⟨.inl rfl, ?_⟩
      rintro e ⟨⟩ h
      exact h
  | submitter j hs =>
    by_cases hne : j = i
    · subst hne
      exact .inl hs
    · refine .inr ⟨.inl ?_, ?_⟩
      · cases hs <;> exact State.setSubmitter_of_ne (Ne.symm hne)
      · cases hs <;> rintro e ⟨⟩ h <;> first | exact hne h | exact h
  | main hs => cases hs <;> exact .inr ⟨.inl rfl, fun e he => nomatch he⟩

theorem step_of_others (i : Nat) (hs : (system totalThreads throws).step s l s') :
    SubmitterStep totalThreads throws i s l s' ∨ (∃ job, s.submitters i = .outside ∧ s' = s.setSubmitter i (.entering job)) ∨
      ((s'.submitters i = s.submitters i ∨ s'.submitters i = (s.submitters i).wake) ∧ ∀ e, l = some e → ¬e.Of i) := by
  rcases hs with hs | ⟨rfl, hs⟩
  · exact (hs.of_others i).imp id .inr
  · cases hs with
    | @call j job _ hpc _ =>
      by_cases hne : j = i
      · subst hne
        exact .inr (.inl ⟨job, hpc, rfl⟩)
      · exact .inr (.inr ⟨.inl (State.setSubmitter_of_ne (Ne.symm hne)), fun e he => nomatch he⟩)
    | destroy => exact .inr (.inr ⟨.inl rfl, fun e he => nomatch he⟩)

/-- A call that has acquired the executor, by its trace. -/
def Acquired (i : Nat) (job : Job) (t : List Event) : Prop :=
  ∃ t₁ t₂, t = t₁ ++ .acquire i job :: t₂ ∧ (∀ e ∈ t₁, ¬e.Of i) ∧ ∀ e ∈ t₂, ¬e.Of i

/-- **While a call has not returned** it is entering with its own job, or has acquired the executor once. -/
theorem call_progress {s₀ : State α} {t : List Event} (h0 : s₀.submitters i = .entering job)
    (h : Run (system totalThreads throws) s₀ t s) (hnone : ∀ r, Event.return i r ∉ t) :
    (s.submitters i = .entering job ∧ ∀ e ∈ t, ¬e.Of i) ∨ ((s.submitters i).Busy ∧ Acquired i job t) := by
  induction h with
  | refl => exact .inl ⟨h0, fun e he => absurd he List.not_mem_nil⟩
  | @step t s s' l hrun hl ih =>
    have ih := ih fun r hr => hnone r (List.mem_append_left _ hr)
    rcases step_of_others i hl with hs | ⟨job', hout, -⟩ | ⟨hsame, hlabel⟩
    · rcases hs.own with ⟨job', hpc, rfl, hbusy⟩ | ⟨hbusy, ⟨r, rfl⟩ | ⟨hbusy', hlabel⟩⟩
      · rcases ih with ⟨hpc', ht⟩ | ⟨hbusy', -⟩
        · rw [hpc'] at hpc
          cases hpc
          exact .inr ⟨hbusy, t, [], rfl, ht, fun e he => absurd he List.not_mem_nil⟩
        · rw [hpc] at hbusy'
          exact hbusy'.elim
      · exact absurd (List.mem_append_right _ (List.mem_singleton.2 rfl)) (hnone r)
      · rcases ih with ⟨hpc, -⟩ | ⟨-, t₁, t₂, rfl, h₁, h₂⟩
        · rw [hpc] at hbusy
          exact hbusy.elim
        · refine .inr ⟨hbusy', t₁, t₂ ++ l.toList, by simp, h₁, fun e he => ?_⟩
          rcases List.mem_append.1 he with he | he
          · exact h₂ e he
          · exact hlabel e (Option.mem_toList.1 he)
    · rcases ih with ⟨hpc, -⟩ | ⟨hbusy, -⟩
      · rw [hpc] at hout
        cases hout
      · rw [hout] at hbusy
        exact hbusy.elim
    · have hrest : ∀ e ∈ l.toList, ¬e.Of i := fun e he => hlabel e (Option.mem_toList.1 he)
      rcases ih with ⟨hpc, ht⟩ | ⟨hbusy, t₁, t₂, rfl, h₁, h₂⟩
      · refine .inl ⟨?_, fun e he => (List.mem_append.1 he).elim (ht e) (hrest e)⟩
        rcases hsame with hsame | hsame
        · rw [hsame, hpc]
        · rw [hsame, hpc]
          rfl
      · refine .inr ⟨?_, t₁, t₂ ++ l.toList, by simp, h₁, fun e he => (List.mem_append.1 he).elim (h₂ e) (hrest e)⟩
        rcases hsame with hsame | hsame
        · rw [hsame]
          exact hbusy
        · rw [hsame]
          exact Submitter.busy_wake hbusy

/-- **The trace of a call that returns.** -/
theorem call_trace {s₀ : State α} {t : List Event} {r : Except Exc Unit} (h0 : s₀.submitters i = .entering job)
    (h : Run (system totalThreads throws) s₀ (t ++ [.return i r]) s) (hnone : ∀ r, Event.return i r ∉ t) :
    Acquired i job t := by
  generalize hu : t ++ [.return i r] = u at h
  induction h with
  | refl => simp at hu
  | @step u s s' l hrun hl ih =>
    cases l with
    | none =>
      rw [Option.toList_none, List.append_nil] at hu
      exact ih hu
    | some e =>
      obtain ⟨rfl, he⟩ := List.append_inj' hu rfl
      obtain rfl : Event.return i r = e := List.head_eq_of_cons_eq he
      rcases call_progress h0 hrun hnone with ⟨hpc, -⟩ | ⟨-, hacquired⟩
      · rcases step_of_others i hl with hs | ⟨job', hout, -⟩ | ⟨-, hlabel⟩
        · rcases hs.own with ⟨job', -, hevent, -⟩ | ⟨hbusy, -⟩
          · cases hevent
          · rw [hpc] at hbusy
            exact hbusy.elim
        · rw [hpc] at hout
          cases hout
        · exact absurd rfl (hlabel _ rfl)
      · exact hacquired

/-! ## What the other calls leave alone -/

/-- The float is in one of the spans of the job. -/
def Job.Touches (job : Job) (address : Nat) : Prop :=
  job.output.Covers address ∨ job.input.Covers address ∨ job.weight.Covers address ∨ job.bias.Covers address

/-- Another call's output is none of these floats. -/
def Job.Apart (job other : Job) : Prop := ∀ address, other.output.Covers address → ¬job.Touches address

/-- Every call of another thread that takes the executor writes somewhere else. -/
def Isolated (i : Nat) (job : Job) (t : List Event) : Prop :=
  ∀ j other, Event.acquire j other ∈ t → j ≠ i → job.Apart other

/-- The submission in progress is another thread's. -/
def Phase.Elsewhere (i : Nat) (job : Job) : Phase → Prop
  | .idle => True
  | .admitted j other _ => j ≠ i ∧ other.Sized ∧ job.Apart other
  | .round r => r.submitter ≠ i ∧ r.job.Sized ∧ job.Apart r.job

omit [Scalar α] in
theorem Job.Apart.ne {other : Job} (h : job.Apart other) (hsized : other.Sized) {o address : Nat}
    (ho : o < other.outputChannels.toNat) (ha : job.Touches address) : address ≠ other.output.data + o := by
  rintro rfl
  refine h _ ⟨Nat.le_add_right _ _, ?_⟩ ha
  rw [hsized.output]
  exact Nat.add_lt_add_left ho _

theorem memory_frame_step {a a' : Serial α} {e : Event} (hphase : a.phase.Elsewhere i job) (he : ¬e.Of i)
    (hisolated : ∀ j other, e = .acquire j other → j ≠ i → job.Apart other) (hs : SerialStep totalThreads throws a e a') :
    a'.phase.Elsewhere i job ∧ ∀ address, job.Touches address → a'.memory address = a.memory address := by
  cases hs with
  | @acquire m j other hcheck =>
    have hne : j ≠ i := fun heq => he heq
    exact ⟨⟨hne, Job.check_ok_iff.1 hcheck, hisolated j other rfl hne⟩, fun _ _ => rfl⟩
  | @scalarWrite m j other c hpar hc =>
    obtain ⟨-, hsized, hapart⟩ := id hphase
    exact ⟨hphase, fun address ha => Function.update_of_ne (hapart.ne hsized hc ha) _ _⟩
  | scalarReturn | «return» => exact ⟨trivial, fun _ _ => rfl⟩
  | publish | begin | finish | record => exact ⟨hphase, fun _ _ => rfl⟩
  | @write m r shard c hshard hs hc =>
    obtain ⟨-, hsized, hapart⟩ := id hphase
    exact ⟨hphase, fun address ha => Function.update_of_ne (hapart.ne hsized (shard_channel_lt hshard hc) ha) _ _⟩

/-- **The floats a call names stay** while other threads have the executor. -/
theorem memory_frame {a a' : Serial α} {t : List Event} (h : Run (serial totalThreads throws) a t a')
    (hphase : a.phase.Elsewhere i job) (ht : ∀ e ∈ t, ¬e.Of i) (hisolated : Isolated i job t) :
    a'.phase.Elsewhere i job ∧ ∀ address, job.Touches address → a'.memory address = a.memory address := by
  induction h with
  | refl => exact ⟨hphase, fun _ _ => rfl⟩
  | @step t a' a'' l hrun hl ih =>
    obtain ⟨e, rfl, he⟩ := hl
    have hmem : e ∈ t ++ (some e).toList := List.mem_append_right _ (List.mem_singleton.2 rfl)
    obtain ⟨hphase', hkeep⟩ := ih (fun e he => ht e (List.mem_append_left _ he))
      fun j other hj => hisolated j other (List.mem_append_left _ hj)
    obtain ⟨hphase'', hkeep'⟩ := memory_frame_step hphase' (ht e hmem)
      (fun j other heq => hisolated j other (heq ▸ hmem)) he
    exact ⟨hphase'', fun address ha => (hkeep' address ha).trans (hkeep address ha)⟩

/-! ## The call itself -/

/-- A submission of which no shard can throw returns normally. -/
theorem Submission.result_ok {b : Submission} (h : b.Complete totalThreads throws) (hnone : NoThrow totalThreads throws)
    (hsized : b.job.Sized) : b.result = .ok () := by
  unfold Submission.Complete at h
  by_cases hpar : Parallel totalThreads b.job
  · rw [if_pos hpar] at h
    cases hresult : b.result with
    | ok u => rfl
    | error e =>
      obtain ⟨shard, e', hfinish⟩ := h.errors.1.1 ⟨e, hresult⟩
      obtain ⟨shards, work, hbody, hwork, hall, -⟩ := h
      rw [hbody, List.mem_cons] at hfinish
      have herror := (hwork.finish_iff hall).1 (hfinish.resolve_left (by simp))
      have hlegal := hwork.legal shard
      have hlt : shard < totalThreads.toNat := by
        by_contra hge
        rw [hwork.outside shard (by omega)] at herror
        cases herror
      cases hs : shards shard with
      | pending => rw [hs] at herror; cases herror
      | running c => rw [hs] at herror; cases herror
      | ended c error | recorded c error =>
        rw [hs] at herror hlegal
        exact absurd (hlegal.2.2 _ herror) (hnone _ _ _ hsized hlt)
  · rw [if_neg hpar] at h
    exact h.2

/-- The events of a submission in progress do not end with a return. -/
theorem Current.not_return {base : Memory α} {current : List Event} {a : Serial α} {r : Except Exc Unit}
    (h : Current totalThreads throws base current a) : Event.return i r ∉ current := by
  cases h with
  | idle => exact List.not_mem_nil
  | admitted => simp [List.mem_replicate]
  | round _ _ hwork _ _ =>
    intro hmem
    simp only [List.mem_cons, reduceCtorEq, false_or] at hmem
    exact hwork.only _ hmem rfl

/-- **A call from acquiring to returning** leaves what the scalar kernel leaves. -/
theorem call_memory (hpos : 0 < totalThreads.toNat) (hnone : NoThrow totalThreads throws) {m : Memory α} {t : List Event}
    {a : Serial α} {r : Except Exc Unit} (hsized : job.Sized) (hsep : job.Separate)
    (h : Run (serial totalThreads throws) ⟨m, .idle⟩ (.acquire i job :: t ++ [.return i r]) a) (ht : ∀ e ∈ t, ¬e.Of i) :
    r = .ok () ∧ job.scalar m = .ok a.memory := by
  obtain ⟨blocks, current, hevents, hcomplete, base, hcurrent, hreplay⟩ := serial_history hpos h
  -- the return at the end is a submission's
  obtain rfl : current = [] := by
    rcases List.eq_nil_or_concat current with rfl | ⟨v, x, rfl⟩
    · rfl
    · rw [List.concat_eq_append, ← List.append_assoc] at hevents
      obtain rfl : Event.return i r = x := List.head_eq_of_cons_eq (List.append_inj' hevents rfl).2
      exact absurd (show Event.return i r ∈ v.concat (Event.return i r) by simp) hcurrent.not_return
  rw [List.append_nil] at hevents
  cases blocks with
  | nil => simp at hevents
  | cons b blocks =>
    simp only [List.flatMap_cons, Submission.events, List.cons_append, List.cons.injEq, Event.acquire.injEq] at hevents
    obtain ⟨⟨rfl, rfl⟩, hevents⟩ := hevents
    have hlast : blocks.flatMap Submission.events = [] := by
      rcases List.eq_nil_or_concat (blocks.flatMap Submission.events) with hnil | ⟨v, x, hv⟩
      · exact hnil
      · -- otherwise the first submission returned before
        rw [hv, List.concat_eq_append, ← List.append_assoc] at hevents
        obtain ⟨rfl, -⟩ := List.append_inj' hevents rfl
        exact absurd rfl (ht (.return b.submitter b.result) (by simp))
    obtain rfl : blocks = [] := by
      cases blocks with
      | nil => rfl
      | cons b' blocks => simp [Submission.events] at hlast
    rw [hlast, List.append_nil] at hevents
    have hresult : r = b.result := by
      have heq := List.head_eq_of_cons_eq (List.append_inj' hevents rfl).2
      rw [Event.return.injEq] at heq
      exact heq.2
    have hbase := hreplay hnone fun b' hb' => by
      rw [List.mem_singleton.1 hb']
      exact hsep
    have hmemory : a.memory = base := by
      cases hcurrent
      rfl
    refine ⟨hresult.trans (Submission.result_ok (hcomplete b (by simp)) hnone hsized), ?_⟩
    rw [← Job.call_eq_scalar hsized hsep hpos, hmemory]
    simp only [replay, List.foldlM_cons, List.foldlM_nil, bind_eq_ok, pure_ok, Except.ok.injEq, exists_eq_right] at hbase
    exact hbase

/-! ## Calls of a session -/

/-- The spans of the job name the arguments of an invocation; the output shares no float with the others. -/
structure Job.Names (job : Job) (memory : Memory α) (args : LinearArgs α) : Prop where
  output : job.output.values memory = args.output
  input : job.input.values memory = args.input
  weight : job.weight.values memory = args.weight
  bias : job.bias.values memory = args.bias
  inputChannels : job.inputChannels = args.inputCount
  outputChannels : job.outputChannels = args.outputCount
  separate : job.Separate

/-- What `linear` returned, and the output buffer it left. -/
def leaves (r : Except Exc Unit) (output : List α) : Except (Exc × List α) (List α) :=
  match r with
  | .ok _ => .ok output
  | .error e => .error (e, output)

variable (totalThreads) in
/-- **One invocation on a shared executor.** The checks reject it; or some thread `i` calls, in whatever state the
executor is and whatever the threads themselves have written since, and the run goes on until that call returns. -/
inductive Served (args : LinearArgs α) : Except (Exc × List α) (List α) → Prop
  | rejected {job : Job} {memory : Memory α} {e : Exc} (hnames : job.Names memory args) (hcheck : job.check = .error e) :
      Served args (leaves (.error e) args.output)
  | returned {job : Job} {memory₀ memory : Memory α} {i : Nat} {t₀ t : List Event} {s₀ s : State α} {r : Except Exc Unit}
      (hbefore : Run (system totalThreads (shardThrows α totalThreads)) (init memory₀) t₀ s₀) (hready : s₀.main = .ready)
      (hout : s₀.submitters i = .outside) (hnames : job.Names memory args) (hcheck : job.check = .ok ())
      (hduring : Run (system totalThreads (shardThrows α totalThreads))
        ({ s₀ with memory }.setSubmitter i (.entering job)) (t ++ [.return i r]) s)
      (hfirst : ∀ r', Event.return i r' ∉ t) (hisolated : Isolated i job (t₀ ++ t)) :
      Served args (leaves r (job.output.values s.memory))

omit [Scalar α] in
/-- What the threads themselves write is no concern of the executor's. -/
theorem Tracks.rewrite {a : Serial α} (h : Tracks totalThreads s a) (memory : Memory α) :
    Tracks totalThreads { s with memory } { a with memory } :=
  { h with memory := rfl }

omit [Scalar α] in
/-- The values of a span depend on its floats only. -/
theorem Span.values_congr {span : Span} {memory memory' : Memory α} (h : ∀ a, span.Covers a → memory' a = memory a) :
    span.values memory' = span.values memory := by
  refine List.map_congr_left fun i hi => h _ ⟨Nat.le_add_right _ _, ?_⟩
  exact Nat.add_lt_add_left (List.mem_range.1 hi) _

omit [Scalar α] in
theorem Job.Names.congr {memory memory' : Memory α} {args : LinearArgs α} (h : job.Names memory args)
    (heq : ∀ a, job.Touches a → memory' a = memory a) : job.Names memory' args :=
  { h with
    output := (Span.values_congr fun a ha => heq a (.inl ha)).trans h.output
    input := (Span.values_congr fun a ha => heq a (.inr (.inl ha))).trans h.input
    weight := (Span.values_congr fun a ha => heq a (.inr (.inr (.inl ha)))).trans h.weight
    bias := (Span.values_congr fun a ha => heq a (.inr (.inr (.inr ha)))).trans h.bias }

theorem Job.Names.scalar_eq {memory : Memory α} {args : LinearArgs α} (h : job.Names memory args) :
    job.scalar memory = (do
      let values ← linear args.output args.input args.weight args.bias 1 args.inputCount args.outputCount
      pure (job.output.store values memory)) := by
  rw [Job.scalar, linearOn, h.output, h.input, h.weight, h.bias, h.inputChannels, h.outputChannels]

theorem kernelLinear_ok_iff {args : LinearArgs α} {out : List α} : kernelLinear args = .ok out ↔
    linear args.output args.input args.weight args.bias 1 args.inputCount args.outputCount = .ok out := by
  unfold kernelLinear
  cases linear args.output args.input args.weight args.bias 1 args.inputCount args.outputCount <;> simp

/-- A call of the kernel that returns has passed its checks. -/
theorem checks_of_kernelLinear {args : LinearArgs α} {out : List α} (h : kernelLinear args = .ok out) :
    LinearChecks args.output args.input args.weight args.bias 1 args.inputCount args.outputCount := by
  by_contra hno
  obtain ⟨text, herr⟩ := linear_rejects hno
  rw [kernelLinear_ok_iff.1 h] at herr
  cases herr

theorem length_of_kernelLinear {args : LinearArgs α} {out : List α} (h : kernelLinear args = .ok out) :
    out.length = args.output.length :=
  linear_length (checks_of_kernelLinear h) (kernelLinear_ok_iff.1 h)

/-- The submission another thread has in progress is isolated from the call of `i`. -/
theorem Tracks.elsewhere {a : Serial α} (htracks : Tracks totalThreads s a) (hout : s.submitters i = .outside) {base : Memory α}
    {current : List Event} (hcurrent : Current totalThreads throws base current a) (hisolated : Isolated i job current) :
    a.phase.Elsewhere i job := by
  have hok := htracks.submitters i
  rw [hout] at hok
  have hholder : a.phase.holder ≠ some i := hok
  cases hcurrent with
  | idle => trivial
  | @admitted m j other c hsized _ _ _ =>
    have hne : j ≠ i := fun heq => hholder (congrArg some heq)
    exact ⟨hne, hsized, hisolated j other (by simp) hne⟩
  | @round m r work hsized _ _ _ _ =>
    have hne : r.submitter ≠ i := fun heq => hholder (congrArg some heq)
    exact ⟨hne, hsized, hisolated r.submitter r.job (by simp) hne⟩

/-- The executor's checks accept what the kernel computes. -/
theorem Job.Names.sized {memory : Memory α} {args : LinearArgs α} (h : job.Names memory args) {out : List α}
    (hout : kernelLinear args = .ok out) : job.Sized := by
  have hlinear := kernelLinear_ok_iff.1 hout
  have hlength : ∀ span : Span, (span.values memory).length = span.size.toNat := fun span => (span.values_vec memory).1
  obtain ⟨ho, hi, hw, hb⟩ := checks_of_kernelLinear hout
  rw [one_mul] at ho hi
  rw [← h.output, hlength] at ho
  rw [← h.input, hlength] at hi
  rw [← h.weight, hlength] at hw
  refine ⟨?_, ?_, ?_, ?_⟩
  · rw [h.outputChannels]
    exact UInt64.toNat_inj.1 ho
  · rw [h.inputChannels]
    exact UInt64.toNat_inj.1 hi
  · rw [h.inputChannels, h.outputChannels, hw]
    rcases linear_fits ⟨by rw [one_mul, ← h.output, hlength, ho], by rw [one_mul, ← h.input, hlength, hi],
      by rw [← h.weight, hlength, hw], hb⟩ ⟨out, hlinear⟩ with hone | hzero | hfit
    · cases hone
    · simp [hzero]
    · exact toNat_mul_of_lt hfit.2.2
  · rcases hb with hb | hb
    · left
      rw [← UInt64.toNat_inj, ← hlength, h.bias, hb]
      rfl
    · right
      rw [h.outputChannels, ← UInt64.toNat_inj, ← hlength, h.bias, hb]

/-- **An invocation returns what the kernel returns**, whatever the other threads do. -/
theorem Served.eq_kernel (hpos : 0 < totalThreads.toNat) {args : LinearArgs α} {result : Except (Exc × List α) (List α)}
    (h : Served totalThreads args result) {out : List α} (hkernel : kernelLinear args = .ok out) : result = .ok out := by
  cases h with
  | @rejected job memory e hnames hcheck =>
    rw [Job.check_ok_iff.2 (hnames.sized hkernel)] at hcheck
    cases hcheck
  | @returned job memory₀ memory i t₀ t s₀ s r hbefore hready hout hnames hcheck hduring hfirst hisolated =>
    have hsized := hnames.sized hkernel
    obtain ⟨a₀, hserial₀, htracks₀⟩ := executor_refines_serial hpos hbefore
    obtain ⟨blocks, current, hevents, -, base, hcurrent, -⟩ := serial_history hpos hserial₀
    have helsewhere := htracks₀.elsewhere hout hcurrent fun j other hj =>
      hisolated j other (List.mem_append_left _ (hevents ▸ List.mem_append_right _ hj))
    -- the call enters
    have henter : (system totalThreads (shardThrows α totalThreads)).step { s₀ with memory } none
        ({ s₀ with memory }.setSubmitter i (.entering job)) := .inr ⟨rfl, .call hready hout hcheck⟩
    obtain ⟨a₀', hsilent, htracks₁⟩ := (htracks₀.rewrite memory).step henter
    obtain rfl := hsilent.eq_of_nil (fun _ _ => serial_silent) rfl
    obtain ⟨a, hserial, htracks⟩ := hduring.simulate (fun _ _ _ _ hR hl => Tracks.step hR hl) htracks₁
    obtain ⟨t₁, t₂, rfl, h₁, h₂⟩ := call_trace (State.setSubmitter_self ..) hduring hfirst
    -- until it has the executor
    rw [List.append_assoc] at hserial
    obtain ⟨⟨m, phase⟩, hwaiting, hcalling⟩ := hserial.split
    obtain ⟨-, hkeep⟩ := memory_frame hwaiting helsewhere h₁ fun j other hj =>
      hisolated j other (List.mem_append_right _ (List.mem_append_left _ hj))
    obtain rfl : phase = .idle := by
      obtain ⟨a', hacquire, -⟩ := (show Run _ _ ([.acquire i job] ++ (t₂ ++ [.return i r])) a from hcalling).split
      have hstep := serialStep_of_run hacquire rfl
      cases hstep
      rfl
    obtain ⟨rfl, hscalar⟩ := call_memory hpos (noThrow_shardThrows totalThreads) hsized hnames.separate hcalling h₂
    -- and what it leaves
    have hnames' : job.Names m args := hnames.congr fun address ha =>
      hkeep address ha
    rw [hnames'.scalar_eq, kernelLinear_ok_iff.1 hkernel, ok_bind, pure_ok, Except.ok.injEq] at hscalar
    have hlength : out.length = job.output.size.toNat := by
      rw [length_of_kernelLinear hkernel, ← hnames.output]
      exact (job.output.values_vec memory).1
    rw [htracks.memory, ← hscalar, Span.values_store hlength]
    rfl

/-! ## Every invocation can be served -/

/-- The sizes of the four spans are `size_t` values. -/
structure Fits (args : LinearArgs α) : Prop where
  output : args.output.length < 2 ^ 64
  input : args.input.length < 2 ^ 64
  weight : args.weight.length < 2 ^ 64
  bias : args.bias.length < 2 ^ 64

def Fits.arrays {args : LinearArgs α} (h : Fits args) : Arrays α :=
  ⟨args.output, args.input, args.weight, args.bias, h.output, h.input, h.weight, h.bias⟩

theorem Fits.names {args : LinearArgs α} (h : Fits args) :
    (h.arrays.job args.inputCount args.outputCount).Names h.arrays.memory args where
  output := Arrays.values_middle (List.nil_append _).symm rfl h.output
  input := Arrays.values_middle rfl rfl h.input
  weight := Arrays.values_middle (List.append_assoc _ _ _).symm (List.length_append).symm h.weight
  bias := by
    refine @Arrays.values_middle _ _ (args.output ++ args.input ++ args.weight) _ [] _ _ ?_ ?_ h.bias
    · rw [List.append_nil, List.append_assoc, List.append_assoc]
      rfl
    · rw [List.length_append, List.length_append]
      rfl
  inputChannels := rfl
  outputChannels := rfl
  separate := h.arrays.separate _ _

/-- The submission returns to its caller. -/
def Event.isReturn (i : Nat) : Event → Bool
  | .return j _ => j == i
  | _ => false

/-- While nobody else calls, only `i` acquires. -/
theorem alone_of_steps {s₀ : State α} {steps : Nat} (h : Steps (threads totalThreads throws) s₀ steps s)
    (h0 : ∀ j, j ≠ i → s₀.submitters j = .outside) :
    ∃ t, Run (system totalThreads throws) s₀ t s ∧ (∀ j other, Event.acquire j other ∈ t → j = i) ∧
      ∀ j, j ≠ i → s.submitters j = .outside := by
  induction h with
  | refl => exact ⟨[], .refl, fun j other hj => absurd hj List.not_mem_nil, h0⟩
  | @step n s s' l _ hl ih =>
    obtain ⟨t, hrun, honly, hout⟩ := ih
    have hsystem : (system totalThreads throws).step s l s' := .inl hl
    have hothers : ∀ j, j ≠ i → s'.submitters j = .outside ∧ ∀ e, l = some e → ¬e.Of j := by
      intro j hne
      rcases Step.of_others j hl with hs | ⟨hsame, hlabel⟩
      · rcases hs.own with ⟨job', hpc, -⟩ | ⟨hbusy, -⟩
        · rw [hout j hne] at hpc
          cases hpc
        · rw [hout j hne] at hbusy
          exact hbusy.elim
      · rw [hout j hne] at hsame
        exact ⟨hsame.elim id id, hlabel⟩
    refine ⟨t ++ l.toList, hrun.step (.inl hl), fun j other hj => ?_, fun j hne => (hothers j hne).1⟩
    rcases List.mem_append.1 hj with hj | hj
    · exact honly j other hj
    · by_contra hne
      exact (hothers j hne).2 _ (Option.mem_toList.1 hj) rfl

theorem exists_served (hpos : 0 < totalThreads.toNat) {args : LinearArgs α} (hfits : Fits args) :
    ∃ result, Served totalThreads args result := by
  cases hcheck : (hfits.arrays.job args.inputCount args.outputCount).check with
  | error e => exact ⟨_, .rejected hfits.names hcheck⟩
  | ok u =>
    obtain ⟨s₀, hbefore, hmatch⟩ := constructed_run (shardThrows α totalThreads) hpos hfits.arrays.memory
    have hmemory : s₀.memory = hfits.arrays.memory := hmatch.tracks.memory
    have hcall : Run (system totalThreads (shardThrows α totalThreads)) s₀ [] _ :=
      Run.refl.silent (.inr ⟨rfl, .call (i := 0) hmatch.rested.main (hmatch.callers 0) hcheck⟩)
    -- the threads run until the call has returned
    have hreached := hbefore.append hcall
    obtain ⟨n, hcallers⟩ := exists_callersBelow hreached
    obtain ⟨a, -, htracks⟩ := executor_refines_serial hpos hreached
    obtain ⟨steps, s, hsteps, hstuck⟩ := exists_stuck threads_lower ⟨hcallers, a, htracks⟩
    obtain ⟨t, hrun, honly, -⟩ := alone_of_steps (i := 0) hsteps fun j hne =>
      (State.setSubmitter_of_ne hne).trans (hmatch.callers j)
    have hout := (stuck_of_reachable hpos (hreached.append hrun) hstuck).1 0
    have hreturn : ∃ r, Event.return 0 r ∈ t := by
      by_contra hnone
      rw [not_exists] at hnone
      rcases call_progress (State.setSubmitter_self ..) hrun hnone with ⟨hpc, -⟩ | ⟨hbusy, -⟩
      · rw [hout] at hpc
        cases hpc
      · rw [hout] at hbusy
        exact hbusy
    obtain ⟨r, t₁, t₂, rfl, hfirst⟩ : ∃ r t₁ t₂, t = t₁ ++ Event.return 0 r :: t₂ ∧ ∀ r', Event.return 0 r' ∉ t₁ := by
      obtain ⟨r, hr⟩ := hreturn
      obtain ⟨e, he⟩ := Option.isSome_iff_exists.1 (List.find?_isSome.2 ⟨_, hr, (beq_self_eq_true 0 : Event.isReturn 0 _ = true)⟩)
      obtain ⟨hreturns, t₁, t₂, rfl, hno⟩ := List.find?_eq_some_iff_append.1 he
      cases e <;> simp only [Event.isReturn, Bool.false_eq_true, beq_iff_eq] at hreturns
      subst hreturns
      exact ⟨_, t₁, t₂, rfl, fun r' hr' => by simpa [Event.isReturn] using hno _ hr'⟩
    rw [← List.singleton_append, ← List.append_assoc] at hrun
    obtain ⟨s', hduring, -⟩ := hrun.split
    refine ⟨_, .returned hbefore hmatch.rested.main (hmatch.callers 0) (hmemory ▸ hfits.names) hcheck hduring hfirst ?_⟩
    intro j other hj hne
    exact absurd (honly j other (List.mem_append_left _ hj)) hne

variable (totalThreads) in
/-- What an executor with so many threads does at the invocations of a session. -/
def Realizes (executor : Executor α) : Prop := ∀ site args, Fits args → Served totalThreads args (executor site args)

theorem exists_realizes (hpos : 0 < totalThreads.toNat) : ∃ executor : Executor α, Realizes totalThreads executor := by
  classical
  have hserved : ∀ args : LinearArgs α, ∃ result, Fits args → Served totalThreads args result := by
    intro args
    by_cases hfits : Fits args
    · obtain ⟨result, h⟩ := exists_served hpos hfits
      exact ⟨result, fun _ => h⟩
    · exact ⟨.ok [], fun h => absurd h hfits⟩
  choose result hresult using hserved
  exact ⟨fun _ args => result args, fun _ args hfits => hresult args hfits⟩

/-- An executor of every size. -/
theorem exists_executors (α : Type) [Scalar α] : ∃ linear : UInt64 → Executor α, ∀ threads, threads ≠ 0 → Realizes threads (linear threads) := by
  have hexists : ∀ threads : UInt64, ∃ executor : Executor α, threads ≠ 0 → Realizes threads executor := by
    intro threads
    by_cases h : threads = 0
    · exact ⟨fun _ _ => .ok [], fun hne => absurd h hne⟩
    · obtain ⟨executor, he⟩ : ∃ executor : Executor α, Realizes threads executor := exists_realizes (pos_of_ne_zero h)
      exact ⟨executor, fun _ => he⟩
  choose linear hlinear using hexists
  exact ⟨linear, hlinear⟩

theorem fits_of_kernelLinear {args : LinearArgs α} {out : List α} (h : kernelLinear args = .ok out) : Fits args := by
  obtain ⟨ho, hi, hw, hb⟩ := checks_of_kernelLinear h
  refine ⟨ho ▸ toNat_lt _, hi ▸ toNat_lt _, hw ▸ toNat_lt _, ?_⟩
  rcases hb with hb | hb
  · rw [hb]
    exact Nat.two_pow_pos 64
  · rw [hb]
    exact toNat_lt _

/-- **An executor with any number of threads is faithful.** -/
theorem Realizes.faithful (hpos : 0 < totalThreads.toNat) {executor : Executor α} (h : Realizes totalThreads executor) :
    Faithful (some executor) := fun site args _ hout => (h site args (fits_of_kernelLinear hout)).eq_kernel hpos hout

end

end LinearExecutor

/-! ## Sessions -/

section

variable [Scalar α]

/-- No executor, or one with any number of threads that other threads share. -/
def Threaded (executor : Option (Executor α)) : Prop :=
  ∀ e, executor = some e → ∃ totalThreads : UInt64, 0 < totalThreads.toNat ∧ LinearExecutor.Realizes totalThreads e

theorem Threaded.faithful : ∀ {executor : Option (Executor α)}, Threaded executor → Faithful executor
  | none, _ => fun _ _ _ hout => hout
  | some e, h => by
    obtain ⟨totalThreads, hpos, he⟩ := h e rfl
    exact he.faithful hpos

/-- The call without an executor. -/
def Call.serially : Call α → Call α
  | .prefill prompt _ => .prefill prompt none
  | .decode token _ => .decode token none
  | .reset => .reset

/-- With and without its threads a call makes one request. -/
theorem Call.Allows.serially_makes {call : Call α} (h : call.Allows Threaded) :
    ∃ request, call.Makes request ∧ call.serially.Makes request := by
  have hfaithful : Faithful (none : Option (Executor α)) := fun _ _ _ hout => hout
  have hnone := hfaithful.follows
  cases call with
  | prefill prompt executor => exact ⟨_, .prefill h.faithful.follows, .prefill hnone⟩
  | decode token executor => exact ⟨_, .decode h.faithful.follows, .decode hnone⟩
  | reset => exact ⟨_, .reset, .reset⟩

theorem serially_makes_all : ∀ {calls : List (Call α)}, (∀ c ∈ calls, c.Allows Threaded) →
    ∃ requests, List.Forall₂ Call.Makes calls requests ∧ List.Forall₂ Call.Makes (calls.map Call.serially) requests
  | [], _ => ⟨[], .nil, .nil⟩
  | c :: cs, h => by
    obtain ⟨request, hthreads, hserial⟩ := (h c (by simp)).serially_makes
    obtain ⟨requests, hthreadss, hserials⟩ := serially_makes_all fun c' (hc' : c' ∈ cs) => h c' (by simp [hc'])
    exact ⟨request :: requests, .cons hthreads hthreadss, .cons hserial hserials⟩

namespace InferenceSession

variable {model : GPT2Model α}

/-- **The threads are invisible.** A session whose calls go to shared executors answers every sequence of calls as
it does on the thread of the caller. -/
theorem threads_invisible {capacity : UInt64} {s : InferenceSession model} {P : List Int32}
    (h : Reachable Threaded capacity s P) {calls : List (Call α)} (hcalls : ∀ c ∈ calls, c.Allows Threaded) :
    (run observe s calls).1 = (run observe s (calls.map Call.serially)).1 := by
  have hholds := h.holds fun executor he => ⟨_, he.faithful.follows⟩
  obtain ⟨requests, hthreads, hserial⟩ := serially_makes_all hcalls
  rw [observe_run hholds hthreads, observe_run hholds hserial]

theorem threads_invisible_tiny : ∃ (s : InferenceSession tinyModel) (e₂ e₃ : Executor Int), make tinyModel 2 = .ok s ∧
    (run observe s [.prefill [0] (some e₂), .decode 1 (some e₃)]).1 =
      (run observe s [.prefill [0] none, .decode 1 none]).1 := by
  obtain ⟨s, hs⟩ := (make_ok_iff tinyModel 2).2 tinyModel_capacity
  obtain ⟨e₂, he₂⟩ : ∃ e : Executor Int, LinearExecutor.Realizes 2 e := LinearExecutor.exists_realizes (by decide)
  obtain ⟨e₃, he₃⟩ : ∃ e : Executor Int, LinearExecutor.Realizes 3 e := LinearExecutor.exists_realizes (by decide)
  have hcalls : ∀ c ∈ [Call.prefill [0] (some e₂), Call.decode 1 (some e₃)], c.Allows Threaded := by
    intro c hc
    simp only [List.mem_cons, List.not_mem_nil, or_false] at hc
    rcases hc with rfl | rfl
    · rintro e ⟨⟩
      exact ⟨2, by decide, he₂⟩
    · rintro e ⟨⟩
      exact ⟨3, by decide, he₃⟩
  exact ⟨s, e₂, e₃, hs, threads_invisible (.make hs) hcalls⟩

end InferenceSession

end

end Gpt2Runtime
