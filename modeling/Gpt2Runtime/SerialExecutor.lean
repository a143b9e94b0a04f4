import Gpt2Runtime.Shards
/-
# The executor as a serial machine

What the executor is for: it takes one submission at a time, runs its shards, in any interleaving, and
answers when every shard is through. `Serial` is that machine: no mutex, no condition variable, no
generation number, one `Round` of shards. Its event lists are sequences of whole submissions
(`Submission.Complete`) followed by at most one in progress, and its memory is what the calls leave one
after the other on one thread (`replay`, `serial_history`).
-/

namespace Gpt2Runtime.LinearExecutor

open Loop Flat Word Kernels Lts

variable {α : Type} [Scalar α]

/-! ## The machine -/

/-- How far a shard of the published job has come. -/
inductive Shard where
  | pending
  | running (written : Nat)
  | ended (written : Nat) (error : Option Exc)
  | recorded (written : Nat) (error : Option Exc)

structure Round where
  submitter : Nat
  job : Job
  shards : Nat → Shard
  /-- The first worker exception recorded so far. -/
  error : Option Exc

inductive Phase where
  | idle
  /-- A submission has the executor; in the fallback so many channels are written. -/
  | admitted (i : Nat) (job : Job) (written : Nat)
  | round (r : Round)

structure Serial (α : Type) where
  memory : Memory α
  phase : Phase

/-- Who runs a shard: shard 0 the submitter, the others their worker. -/
def runner (i shard : Nat) : Thread := if shard = 0 then .submitter i else .worker shard

/-- The shard is through: the submitter knows how its own ended, a worker has recorded how its ended. -/
def Shard.Final (shard : Nat) : Shard → Prop
  | .pending => False
  | .running _ => False
  | .ended _ _ => shard = 0
  | .recorded _ _ => shard ≠ 0

def Shard.error : Shard → Option Exc
  | .pending => none
  | .running _ => none
  | .ended _ e => e
  | .recorded _ e => e

def Shard.written : Shard → Nat
  | .pending => 0
  | .running c => c
  | .ended c _ => c
  | .recorded c _ => c

def Round.set (r : Round) (shard : Nat) (progress : Shard) : Round :=
  { r with shards := Function.update r.shards shard progress }

@[simp] theorem Round.set_self (r : Round) (shard : Nat) (progress : Shard) : (r.set shard progress).shards shard = progress :=
  Function.update_self _ _ _

theorem Round.set_of_ne {r : Round} {shard shard' : Nat} {progress : Shard} (h : shard' ≠ shard) :
    (r.set shard progress).shards shard' = r.shards shard' := Function.update_of_ne h _ _

variable (totalThreads : UInt64) (throws : Throws)

inductive SerialStep : Serial α → Event → Serial α → Prop
  | acquire {m : Memory α} {i : Nat} {job : Job} (hcheck : job.check = .ok ()) :
      SerialStep ⟨m, .idle⟩ (.acquire i job) ⟨m, .admitted i job 0⟩
  | scalarWrite {m : Memory α} {i : Nat} {job : Job} {c : Nat} (hpar : ¬Parallel totalThreads job)
      (hc : c < job.outputChannels.toNat) :
      SerialStep ⟨m, .admitted i job c⟩ (.scalarWrite i) ⟨job.write c m, .admitted i job (c + 1)⟩
  | scalarReturn {m : Memory α} {i : Nat} {job : Job} {c : Nat} (hpar : ¬Parallel totalThreads job)
      (hc : c = job.outputChannels.toNat) :
      SerialStep ⟨m, .admitted i job c⟩ (.return i (.ok ())) ⟨m, .idle⟩
  | publish {m : Memory α} {i : Nat} {job : Job} (hpar : Parallel totalThreads job) :
      SerialStep ⟨m, .admitted i job 0⟩ (.publish i) ⟨m, .round ⟨i, job, fun _ => .pending, none⟩⟩
  | begin {m : Memory α} {r : Round} {shard : Nat} (hshard : shard < totalThreads.toNat) (hs : r.shards shard = .pending) :
      SerialStep ⟨m, .round r⟩ (.begin (runner r.submitter shard) shard r.job) ⟨m, .round (r.set shard (.running 0))⟩
  | write {m : Memory α} {r : Round} {shard c : Nat} (hshard : shard < totalThreads.toNat)
      (hs : r.shards shard = .running c) (hc : c < shardCount totalThreads r.job shard) :
      SerialStep ⟨m, .round r⟩ (.write shard)
        ⟨r.job.write (shardFirst totalThreads r.job shard + c) m, .round (r.set shard (.running (c + 1)))⟩
  | finish {m : Memory α} {r : Round} {shard c : Nat} {error : Option Exc} (hshard : shard < totalThreads.toNat)
      (hs : r.shards shard = .running c) (hok : error = none → c = shardCount totalThreads r.job shard)
      (herr : ∀ e, error = some e → throws r.job shard e) :
      SerialStep ⟨m, .round r⟩ (.finish shard error) ⟨m, .round (r.set shard (.ended c error))⟩
  | record {m : Memory α} {r : Round} {shard c : Nat} {error : Option Exc} (hshard : shard < totalThreads.toNat)
      (hworker : shard ≠ 0) (hs : r.shards shard = .ended c error) :
      SerialStep ⟨m, .round r⟩ (.record shard error)
        ⟨m, .round { r.set shard (.recorded c error) with error := r.error.or error }⟩
  | return {m : Memory α} {r : Round} (hall : ∀ shard, shard < totalThreads.toNat → (r.shards shard).Final shard) :
      SerialStep ⟨m, .round r⟩ (.return r.submitter (outcome (r.shards 0).error r.error)) ⟨m, .idle⟩

/-- Every step of the serial machine shows. -/
def serial : System (Serial α) Event where
  step s l s' := ∃ e, l = some e ∧ SerialStep totalThreads throws s e s'

/-! ## Submissions -/

/-- The shard an event belongs to. -/
def Event.shard? : Event → Option Nat
  | .begin _ shard _ => some shard
  | .write shard => some shard
  | .finish shard _ => some shard
  | .record shard _ => some shard
  | _ => none

/-- The exception a worker records. -/
def Event.recorded? : Event → Option Exc
  | .record _ error => error
  | _ => none

/-- What a shard has shown. -/
def Shard.events (thread : Thread) (shard : Nat) (job : Job) : Shard → List Event
  | .pending => []
  | .running c => .begin thread shard job :: List.replicate c (.write shard)
  | .ended c error => .begin thread shard job :: List.replicate c (.write shard) ++ [.finish shard error]
  | .recorded c error =>
    .begin thread shard job :: List.replicate c (.write shard) ++ [.finish shard error, .record shard error]

/-- A shard that ends without an exception has written all its channels. -/
def Shard.Legal (job : Job) (shard : Nat) : Shard → Prop
  | .pending => True
  | .running c => c ≤ shardCount totalThreads job shard
  | .ended c error | .recorded c error => c ≤ shardCount totalThreads job shard ∧
    (error = none → c = shardCount totalThreads job shard) ∧ ∀ e, error = some e → throws job shard e

/-- The events of a job's shards: each shard has shown its own in order, run by its own thread on this
job, and there are no others. -/
structure Work (i : Nat) (job : Job) (shards : Nat → Shard) (work : List Event) : Prop where
  events : ∀ shard, (work.filter fun e => e.shard? = some shard) = (shards shard).events (runner i shard) shard job
  only : ∀ e ∈ work, e.shard? ≠ none
  legal : ∀ shard, (shards shard).Legal totalThreads throws job shard
  outside : ∀ shard, totalThreads.toNat ≤ shard → shards shard = .pending

structure Submission where
  submitter : Nat
  job : Job
  body : List Event
  result : Except Exc Unit

def Submission.events (b : Submission) : List Event :=
  .acquire b.submitter b.job :: b.body ++ [.return b.submitter b.result]

/-- The body of a parallel submission: its publication, then every shard from beginning to end, in any
interleaving. Its result is the submitter's exception, or the first one a worker recorded, or none. -/
def Submission.Rounds (b : Submission) : Prop :=
  ∃ shards work, b.body = .publish b.submitter :: work ∧ Work totalThreads throws b.submitter b.job shards work ∧
    (∀ shard, shard < totalThreads.toNat → (shards shard).Final shard) ∧
    b.result = outcome (shards 0).error (work.findSome? Event.recorded?)

/-- A submission from taking `submit_mutex_` to returning. -/
def Submission.Complete (b : Submission) : Prop :=
  if Parallel totalThreads b.job then b.Rounds totalThreads throws
  else b.body = List.replicate b.job.outputChannels.toNat (.scalarWrite b.submitter) ∧ b.result = .ok ()

/-- A submission that has not returned. -/
inductive InProgress : List Event → Prop
  | scalar {i : Nat} {job : Job} {c : Nat} (hpar : 0 < c → ¬Parallel totalThreads job)
      (hc : c ≤ job.outputChannels.toNat) : InProgress (.acquire i job :: List.replicate c (.scalarWrite i))
  | parallel {i : Nat} {job : Job} {shards : Nat → Shard} {work : List Event} (hpar : Parallel totalThreads job)
      (hwork : Work totalThreads throws i job shards work) : InProgress (.acquire i job :: .publish i :: work)

/-! ## One event of a shard -/

section

variable {totalThreads throws} {i : Nat} {job : Job} {shards : Nat → Shard} {work : List Event}

theorem Work.nil : Work totalThreads throws i job (fun _ => .pending) [] :=
  ⟨fun _ => rfl, fun _ h => absurd h List.not_mem_nil, fun _ => trivial, fun _ _ => rfl⟩

theorem Work.append (h : Work totalThreads throws i job shards work) {shard : Nat} {e : Event} {progress : Shard}
    (he : e.shard? = some shard) (hshard : shard < totalThreads.toNat)
    (hevents : progress.events (runner i shard) shard job = (shards shard).events (runner i shard) shard job ++ [e])
    (hlegal : progress.Legal totalThreads throws job shard) :
    Work totalThreads throws i job (Function.update shards shard progress) (work ++ [e]) := by
  refine ⟨fun shard' => ?_, fun e' he' => ?_, fun shard' => ?_, fun shard' hge => ?_⟩
  · rw [List.filter_append, h.events]
    by_cases heq : shard' = shard
    · subst heq
      rw [Function.update_self, hevents, List.filter_singleton, decide_eq_true he]
      rfl
    · have hne : ¬e.shard? = some shard' := by
        rw [he]
        exact fun h' => heq (Option.some.inj h').symm
      rw [Function.update_of_ne heq, List.filter_singleton, decide_eq_false hne]
      exact List.append_nil _
  · rcases List.mem_append.1 he' with he' | he'
    · exact h.only e' he'
    · rw [List.mem_singleton.1 he', he]
      exact Option.some_ne_none _
  · by_cases heq : shard' = shard
    · subst heq
      rwa [Function.update_self]
    · rw [Function.update_of_ne heq]
      exact h.legal shard'
  · rw [Function.update_of_ne (by omega)]
    exact h.outside shard' hge

end

/-! ## Histories -/

/-- The channels the shards have written. -/
def Round.Written (r : Round) (o : Nat) : Prop :=
  ∃ shard c, c < (r.shards shard).written ∧ o = shardFirst totalThreads r.job shard + c

/-- The submission in progress: `base` is the memory it found, `current` what it has shown. -/
inductive Current (base : Memory α) : List Event → Serial α → Prop
  | idle : Current base [] ⟨base, .idle⟩
  | admitted {m : Memory α} {i : Nat} {job : Job} {c : Nat} (hsized : job.Sized)
      (hc : c ≤ job.outputChannels.toNat) (hpar : 0 < c → ¬Parallel totalThreads job)
      (hm : job.Separate → job.Wrote base m fun o => o < c) :
      Current base (.acquire i job :: List.replicate c (.scalarWrite i)) ⟨m, .admitted i job c⟩
  | round {m : Memory α} {r : Round} {work : List Event} (hsized : r.job.Sized)
      (hpar : Parallel totalThreads r.job) (hwork : Work totalThreads throws r.submitter r.job r.shards work)
      (herr : r.error = work.findSome? Event.recorded?) (hm : r.job.Separate → r.job.Wrote base m (r.Written totalThreads)) :
      Current base (.acquire r.submitter r.job :: .publish r.submitter :: work) ⟨m, .round r⟩

/-- What a list of submissions leaves when they are executed one at a time. -/
def replay (blocks : List Submission) (memory : Memory α) : Except Exc (Memory α) :=
  blocks.foldlM (fun memory b => b.job.call totalThreads memory) memory

/-- No shard of a checked job throws. -/
def NoThrow : Prop := ∀ job shard e, job.Sized → shard < totalThreads.toNat → ¬throws job shard e

theorem noThrow_shardThrows : NoThrow totalThreads (shardThrows α totalThreads) := by
  rintro job shard e hsized hshard ⟨memory, he⟩
  rw [runShard_ok hsized hshard] at he
  cases he

/-- The events are whole submissions and the one in progress. -/
structure History (memory : Memory α) (t : List Event) (a : Serial α) (blocks : List Submission) (current : List Event) :
    Prop where
  events : t = blocks.flatMap Submission.events ++ current
  complete : ∀ b ∈ blocks, b.Complete totalThreads throws
  current : ∃ base, Current totalThreads throws base current a ∧
    (NoThrow totalThreads throws → (∀ b ∈ blocks, b.job.Separate) → replay totalThreads blocks memory = .ok base)

section

variable {totalThreads throws} {base : Memory α}

theorem Current.inProgress {current : List Event} {a : Serial α} (h : Current totalThreads throws base current a) :
    current = [] ∨ InProgress totalThreads throws current := by
  cases h with
  | idle => exact .inl rfl
  | admitted _ hc hpar _ => exact .inr (.scalar hpar hc)
  | round _ hpar hwork _ _ => exact .inr (.parallel hpar hwork)

omit [Scalar α] in
theorem Round.written_set {r : Round} {shard : Nat} {progress : Shard}
    (h : progress.written = (r.shards shard).written) (o : Nat) :
    (r.set shard progress).Written totalThreads o ↔ r.Written totalThreads o := by
  have hshards : ∀ shard', ((r.set shard progress).shards shard').written = (r.shards shard').written := by
    intro shard'
    by_cases heq : shard' = shard
    · rw [heq, Round.set_self, h]
    · rw [Round.set_of_ne heq]
  simp only [Round.Written, hshards]
  rfl

omit [Scalar α] in
theorem Round.written_succ {r : Round} {shard c : Nat} (h : r.shards shard = .running c) (o : Nat) :
    (r.set shard (.running (c + 1))).Written totalThreads o ↔
      r.Written totalThreads o ∨ o = shardFirst totalThreads r.job shard + c := by
  constructor
  · rintro ⟨shard', c', hc', rfl⟩
    by_cases heq : shard' = shard
    · subst heq
      rw [Round.set_self] at hc'
      by_cases hlast : c' = c
      · exact .inr (by rw [hlast]; rfl)
      · refine .inl ⟨shard', c', ?_, rfl⟩
        rw [h]
        have hlt : c' < c + 1 := hc'
        exact show c' < c by omega
    · rw [Round.set_of_ne heq] at hc'
      exact .inl ⟨shard', c', hc', rfl⟩
  · rintro (⟨shard', c', hc', rfl⟩ | rfl)
    · refine ⟨shard', c', ?_, rfl⟩
      by_cases heq : shard' = shard
      · subst heq
        rw [h] at hc'
        rw [Round.set_self]
        exact Nat.lt_succ_of_lt hc'
      · rw [Round.set_of_ne heq]
        exact hc'
    · refine ⟨shard, c, ?_, rfl⟩
      rw [Round.set_self]
      exact Nat.lt_succ_self c

/-- A shard's event goes to the end of the submission's. -/
theorem Current.shard_event {m : Memory α} {r : Round} {work : List Event} {shard : Nat} (progress : Shard) (e : Event)
    (hsized : r.job.Sized) (hpar : Parallel totalThreads r.job)
    (hwork : Work totalThreads throws r.submitter r.job r.shards work) (herr : r.error = work.findSome? Event.recorded?)
    (hshard : shard < totalThreads.toNat) (he : e.shard? = some shard)
    (hevents : progress.events (runner r.submitter shard) shard r.job =
      (r.shards shard).events (runner r.submitter shard) shard r.job ++ [e])
    (hlegal : progress.Legal totalThreads throws r.job shard)
    (hm : r.job.Separate → r.job.Wrote base m ((r.set shard progress).Written totalThreads)) :
    Current totalThreads throws base
      ((.acquire r.submitter r.job :: .publish r.submitter :: work) ++ [e])
      ⟨m, .round { r.set shard progress with error := r.error.or e.recorded? }⟩ := by
  have herr' : r.error.or e.recorded? = (work ++ [e]).findSome? Event.recorded? := by
    rw [List.findSome?_append, herr, List.findSome?_singleton]
  exact .round (r := { r.set shard progress with error := r.error.or e.recorded? }) hsized hpar
    (hwork.append he hshard hevents hlegal) herr' hm

/-- **One event.** It belongs to the submission in progress, or completes it. -/
theorem Current.step {current : List Event} {a a' : Serial α} {e : Event}
    (h : Current totalThreads throws base current a) (hpos : 0 < totalThreads.toNat)
    (he : SerialStep totalThreads throws a e a') :
    Current totalThreads throws base (current ++ [e]) a' ∨
      (∃ b : Submission, b.Complete totalThreads throws ∧ b.events = current ++ [e] ∧ a'.phase = .idle ∧
        (NoThrow totalThreads throws → b.job.Separate → b.job.call totalThreads base = .ok a'.memory)) := by
  cases he with
  | @acquire m i job hcheck =>
    cases h
    refine .inl (.admitted (c := 0) (Job.check_ok_iff.1 hcheck) (Nat.zero_le _) (fun h0 => absurd h0 (Nat.lt_irrefl 0)) fun _ => ?_)
    exact (Job.Wrote.refl job base).congr fun o => ⟨fun ho => absurd ho (Nat.not_lt_zero o), False.elim⟩
  | @scalarWrite m i job c hpar hc =>
    cases h with
    | admitted hsized _ _ hm =>
      left
      rw [List.cons_append, ← List.replicate_succ']
      exact .admitted hsized hc (fun _ => hpar) fun hsep => ((hm hsep).write hsized hsep hc).congr fun o => by omega
  | @scalarReturn m i job c hpar hc =>
    cases h with
    | admitted hsized _ _ hm =>
      subst hc
      refine .inr ⟨⟨i, job, List.replicate job.outputChannels.toNat (.scalarWrite i), .ok ()⟩, ?_, rfl, rfl, fun _ hsep => ?_⟩
      · rw [Submission.Complete, if_neg hpar]
        exact ⟨rfl, rfl⟩
      · rw [Job.call_eq_scalar hsized hsep hpos]
        exact (hm hsep).complete hsized fun o ho => ho
  | @publish m i job hpar =>
    cases h with
    | admitted hsized _ _ hm =>
      refine .inl (.round (r := ⟨i, job, fun _ => .pending, none⟩) hsized hpar .nil rfl fun hsep => (hm hsep).congr fun o => ?_)
      constructor
      · rintro ⟨shard, c, hc, -⟩
        exact absurd hc (Nat.not_lt_zero c)
      · exact fun ho => absurd ho (Nat.not_lt_zero o)
  | @begin m r shard hshard hs =>
    cases h with
    | round hsized hpar hwork herr hm =>
      have hcurrent := Current.shard_event (.running 0) (.begin (runner r.submitter shard) shard r.job) hsized hpar
        hwork herr hshard rfl (by rw [hs]; rfl) (Nat.zero_le _)
        (fun hsep => (hm hsep).congr (Round.written_set (by rw [hs]; rfl)))
      simp only [Event.recorded?, Option.or_none] at hcurrent
      exact .inl hcurrent
  | @write m r shard c hshard hs hc =>
    cases h with
    | round hsized hpar hwork herr hm =>
      have hcurrent := Current.shard_event (.running (c + 1)) (.write shard) hsized hpar hwork herr
        hshard rfl (by rw [hs, Shard.events, List.replicate_succ']; rfl) hc
        (fun hsep => ((hm hsep).write hsized hsep (shard_channel_lt hshard hc)).congr (Round.written_succ hs))
      simp only [Event.recorded?, Option.or_none] at hcurrent
      exact .inl hcurrent
  | @finish m r shard c error hshard hs hok hthrow =>
    cases h with
    | round hsized hpar hwork herr hm =>
      have hc : c ≤ shardCount totalThreads r.job shard := by
        have := hwork.legal shard
        rwa [hs] at this
      have hcurrent := Current.shard_event (.ended c error) (.finish shard error) hsized hpar hwork herr
        hshard rfl (by rw [hs]; rfl) ⟨hc, hok, hthrow⟩
        (fun hsep => (hm hsep).congr (Round.written_set (by rw [hs]; rfl)))
      simp only [Event.recorded?, Option.or_none] at hcurrent
      exact .inl hcurrent
  | @record m r shard c error hshard hworker hs =>
    cases h with
    | round hsized hpar hwork herr hm =>
      have hlegal : (Shard.recorded c error).Legal totalThreads throws r.job shard := by
        have := hwork.legal shard
        rwa [hs] at this
      exact .inl (Current.shard_event (.recorded c error) (.record shard error) hsized hpar hwork
        herr hshard rfl (by rw [hs, Shard.events, Shard.events, List.append_assoc]; rfl) hlegal
        (fun hsep => (hm hsep).congr (Round.written_set (by rw [hs]; rfl))))
  | @«return» m r hall =>
    cases h with
    | @round _ _ work hsized hpar hwork herr hm =>
      refine .inr ⟨⟨r.submitter, r.job, .publish r.submitter :: work, outcome (r.shards 0).error r.error⟩, ?_, rfl, rfl,
        fun hnone hsep => (Job.call_eq_scalar hsized hsep hpos base).trans ((hm hsep).complete hsized fun o ho => ?_)⟩
      · rw [Submission.Complete, if_pos hpar]
        exact ⟨r.shards, work, rfl, hwork, hall, by rw [herr]⟩
      · -- no shard can have thrown, so each has written its whole block
        obtain ⟨shard, c, hshard, hc, rfl⟩ := exists_shard hpos ho
        refine ⟨shard, c, ?_, rfl⟩
        have hlegal := hwork.legal shard
        have hfinal := hall shard hshard
        cases hs : r.shards shard with
        | pending => rw [hs] at hfinal; exact hfinal.elim
        | running c' => rw [hs] at hfinal; exact hfinal.elim
        | ended c' error | recorded c' error =>
          rw [hs] at hlegal
          obtain ⟨-, hwritten, hthrow⟩ := hlegal
          cases error with
          | none => rw [Shard.written, hwritten rfl]; exact hc
          | some x => exact absurd (hthrow x rfl) (hnone _ _ _ hsized hshard)

theorem History.step {memory : Memory α} {t : List Event} {a a' : Serial α} {blocks : List Submission}
    {current : List Event} {e : Event} (hpos : 0 < totalThreads.toNat)
    (h : History totalThreads throws memory t a blocks current)
    (he : SerialStep totalThreads throws a e a') :
    ∃ blocks' current', History totalThreads throws memory (t ++ [e]) a' blocks' current' := by
  obtain ⟨hevents, hcomplete, base, hcurrent, hreplay⟩ := h
  rcases hcurrent.step hpos he with hcurrent' | ⟨b, hb, hbevents, hidle, hbreplay⟩
  · exact ⟨blocks, current ++ [e], by rw [hevents, List.append_assoc], hcomplete, base, hcurrent', hreplay⟩
  · obtain ⟨m, phase⟩ := a'
    obtain rfl : phase = .idle := hidle
    refine ⟨blocks ++ [b], [], ?_, ?_, m, .idle, fun hnone hsep => ?_⟩
    · rw [hevents, List.append_assoc, ← hbevents, List.flatMap_append]
      simp
    · intro b' hb'
      rcases List.mem_append.1 hb' with hb' | hb'
      · exact hcomplete b' hb'
      · rw [List.mem_singleton.1 hb']
        exact hb
    · rw [replay, List.foldlM_append]
      have hfold := hreplay hnone fun b' hb' => hsep b' (List.mem_append_left _ hb')
      unfold replay at hfold
      rw [hfold]
      simp only [ok_bind, List.foldlM_cons, List.foldlM_nil, hbreplay hnone (hsep b (by simp)), pure_ok]

/-- **Every run of the serial machine** is a sequence of whole submissions and one in progress. -/
theorem serial_history (hpos : 0 < totalThreads.toNat) {memory : Memory α} {t : List Event} {a : Serial α}
    (h : Run (serial totalThreads throws) ⟨memory, .idle⟩ t a) :
    ∃ blocks current, History totalThreads throws memory t a blocks current := by
  induction h with
  | refl => exact ⟨[], [], rfl, fun b hb => absurd hb List.not_mem_nil, memory, .idle, fun _ _ => rfl⟩
  | step _ hl ih =>
    obtain ⟨blocks, current, hist⟩ := ih
    obtain ⟨e, rfl, he⟩ := hl
    exact hist.step hpos he

end

end Gpt2Runtime.LinearExecutor
