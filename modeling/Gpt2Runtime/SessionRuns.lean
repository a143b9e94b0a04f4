import Gpt2Runtime.SessionRefinement
/-
# Runs of a session

`Reachable A capacity s P`: `s` is reached from a new session by calls whose executors satisfy `A`,
accepted or not, and `P` lists the tokens of the accepted calls since construction or the last reset.
Two kinds of executor matter: `Faithful` ones return what the kernel returns, `Planned` ones may throw
at any set of invocations and leave any bytes behind.
-/

namespace Gpt2Runtime

open Loop Flat Word Kernels Refine

variable {α : Type} [Scalar α]

/-! ## Executors -/

/-- The executor returns what `kernels::linear` returns with one row. -/
def Faithful (executor : Option (Executor α)) : Prop :=
  ∀ site args out, kernelLinear args = .ok out → invoke executor site args = .ok out

/-- An exception thrown by one invocation, and the output buffer it leaves. -/
structure Fault (α : Type) where
  error : Exc
  scribble : LinearArgs α → List α
  length_scribble : ∀ args, (scribble args).length = args.output.length

/-- The executor that throws at the given invocations. -/
def faulting (faults : Site → Option (Fault α)) : Executor α := fun site args =>
  match faults site with
  | none => kernelLinear args
  | some fault => .error (fault.error, fault.scribble args)

/-- The executor returns what the kernel returns except at the invocations some plan makes throw,
where it leaves anything of the same length. -/
def Planned (executor : Option (Executor α)) : Prop := ∃ plan, Follows executor plan

theorem Faithful.follows {executor : Option (Executor α)} (h : Faithful executor) :
    Follows executor fun _ => none := fun site args out hout => h site args out hout

theorem faulting_follows (faults : Site → Option (Fault α)) :
    Follows (some (faulting faults)) fun site => (faults site).map Fault.error := by
  intro site args
  simp only [invoke, faulting]
  cases hsite : faults site with
  | none => exact fun out hout => hout
  | some fault => exact ⟨fault.scribble args, fault.length_scribble args, rfl⟩

/-- The executor of a call satisfies `A`. -/
def Call.Allows (A : Option (Executor α) → Prop) : Call α → Prop
  | .prefill _ executor => A executor
  | .decode _ executor => A executor
  | .reset => True

theorem Call.Allows.makes {A : Option (Executor α) → Prop} (hA : ∀ executor, A executor → Planned executor)
    {call : Call α} (h : call.Allows A) : ∃ request, call.Makes request := by
  cases call with
  | prefill prompt executor =>
    obtain ⟨plan, hf⟩ := hA executor h
    exact ⟨_, .prefill hf⟩
  | decode token executor =>
    obtain ⟨plan, hf⟩ := hA executor h
    exact ⟨_, .decode hf⟩
  | reset => exact ⟨_, .reset⟩

theorem makes_all {A : Option (Executor α) → Prop} (hA : ∀ executor, A executor → Planned executor) :
    ∀ {calls : List (Call α)}, (∀ c ∈ calls, c.Allows A) → ∃ requests, List.Forall₂ Call.Makes calls requests
  | [], _ => ⟨[], .nil⟩
  | c :: cs, h => by
    obtain ⟨request, hreq⟩ := Call.Allows.makes hA (h c (by simp))
    obtain ⟨requests, hreqs⟩ := makes_all hA fun c' (hc' : c' ∈ cs) => h c' (by simp [hc'])
    exact ⟨request :: requests, .cons hreq hreqs⟩

/-! ## Reachable states -/

/-- The consumed tokens after a call, given what the call returned. -/
def consumed (P : List Int32) : Call α → Except Exc (List α) → List Int32
  | .prefill prompt _, .ok _ => P ++ prompt
  | .decode token _, .ok _ => P ++ [token]
  | .reset, _ => []
  | _, .error _ => P

namespace InferenceSession

variable {model : GPT2Model α}

inductive Reachable (A : Option (Executor α) → Prop) (capacity : UInt64) : InferenceSession model → List Int32 → Prop
  | make {s : InferenceSession model} (h : make model capacity = .ok s) : Reachable A capacity s []
  | step {s : InferenceSession model} {P : List Int32} (h : Reachable A capacity s P) {call : Call α}
      (hcall : call.Allows A) : Reachable A capacity (s.step call).2 (consumed P call (s.step call).1)

/-- The machine's state is the list of tokens the accepted calls consumed. -/
theorem machine_consumed {capacity : UInt64} {P : List Int32} {call : Call α} {request : Request}
    (hreq : call.Makes request) :
    ((model.machine capacity).step P request).2 = consumed P call ((model.machine capacity).step P request).1 := by
  cases hreq with
  | reset => rfl
  | @prefill prompt executor plan hf =>
    simp only [TokenMachine.step]
    cases hcheck : (model.machine capacity).checkPrefill P prompt with
    | error e => rfl
    | ok u =>
      obtain ⟨rfl, -⟩ := TokenMachine.checkPrefill_ok_iff.1 hcheck
      simp only [ok_bind]
      cases plan.tokens (model.machine capacity).layers prompt.length <;> rfl
  | @decode token executor plan hf =>
    simp only [TokenMachine.step]
    cases (model.machine capacity).checkDecode P token >>= fun _ => plan.token (model.machine capacity).layers P.length <;> rfl

/-- **Every reachable session stands for its consumed tokens.** -/
theorem Reachable.holds {A : Option (Executor α) → Prop} (hA : ∀ executor, A executor → Planned executor)
    {capacity : UInt64} {s : InferenceSession model} {P : List Int32} (h : Reachable A capacity s P) :
    s.Holds capacity P := by
  induction h with
  | make h => exact (make_holds h).2
  | @step s P h call hcall ih =>
    obtain ⟨request, hreq⟩ := hcall.makes hA
    obtain ⟨hout, hholds⟩ := step_refines ih hreq
    rw [machine_consumed hreq, ← hout] at hholds
    exact hholds

/-! ## The session and the forward pass -/

/-- The machine's logits are the last row of the forward pass on the consumed tokens. -/
theorem machine_logits (model : GPT2Model α) (capacity : UInt64) {P : List Int32}
    (h : Accepted model.weights.config P) (workspace : InferenceWorkspace α) :
    ∃ ws, model.forward P workspace = .ok ws ∧
      lastRealLogits model.weights.config ws.logits = .ok ((model.machine capacity).logits P) := by
  obtain ⟨ws, hok, -, hlogits⟩ := forward_ok h workspace
  exact ⟨ws, hok, lastRealLogits_ok model.wellFormed.valid hlogits (List.length_pos_iff.2 h.nonempty)⟩

/-- Without faults no invocation stops a call. -/
theorem plan_token_none (L p : Nat) : Plan.token (fun _ => none) L p = .ok () := by
  have hloop : forN L () (fun l _ => Plan.layer (fun _ => none) p l) = .ok (foldN L () fun _ _ => ()) :=
    forN_eq_fold () fun _ _ _ => rfl
  simp only [Plan.token, hloop, ok_bind, Plan.check]

theorem plan_tokens_none (L n : Nat) : Plan.tokens (fun _ => none) L n = .ok () := by
  have hloop : forN n () (fun p _ => Plan.token (fun _ => none) L p) = .ok (foldN n () fun _ _ => ()) :=
    forN_eq_fold () fun p _ _ => plan_token_none L p
  exact hloop

/-- What a faithful call returns: the checks decide, and the logits are the machine's. -/
theorem Holds.faithful_prefill {capacity : UInt64} {P : List Int32} {s : InferenceSession model} (h : s.Holds capacity P)
    (prompt : List Int32) {executor : Option (Executor α)} (hf : Faithful executor) :
    (s.step (.prefill prompt executor)).1 =
      (do (model.machine capacity).checkPrefill P prompt; pure ((model.machine capacity).logits prompt)) := by
  rw [(step_refines h (.prefill hf.follows)).1]
  simp only [TokenMachine.step]
  cases (model.machine capacity).checkPrefill P prompt with
  | error e => rfl
  | ok u => simp only [ok_bind, plan_tokens_none]; rfl

theorem Holds.faithful_decode {capacity : UInt64} {P : List Int32} {s : InferenceSession model} (h : s.Holds capacity P)
    (token : Int32) {executor : Option (Executor α)} (hf : Faithful executor) :
    (s.step (.decode token executor)).1 =
      (do (model.machine capacity).checkDecode P token; pure ((model.machine capacity).logits (P ++ [token]))) := by
  rw [(step_refines h (.decode hf.follows)).1]
  simp only [TokenMachine.step]
  cases (model.machine capacity).checkDecode P token with
  | error e => rfl
  | ok u => simp only [ok_bind, plan_token_none]; rfl

theorem step_prefill_ok {s s' : InferenceSession model} {prompt : List Int32} {executor : Option (Executor α)}
    (h : s.prefill prompt executor = .ok s') : (s.step (.prefill prompt executor)).1 = .ok s'.logits := by
  simp only [step, h]

theorem step_decode_ok {s s' : InferenceSession model} {token : Int32} {executor : Option (Executor α)}
    (h : s.decode token executor = .ok s') : (s.step (.decode token executor)).1 = .ok s'.logits := by
  simp only [step, h]

theorem prefill_ok_of_step {s : InferenceSession model} {prompt : List Int32} {executor : Option (Executor α)}
    {logits : List α} (h : (s.step (.prefill prompt executor)).1 = .ok logits) : ∃ s', s.prefill prompt executor = .ok s' := by
  cases hp : s.prefill prompt executor with
  | ok s' => exact ⟨s', rfl⟩
  | error x => simp [step, hp] at h

theorem decode_ok_of_step {s : InferenceSession model} {token : Int32} {executor : Option (Executor α)}
    {logits : List α} (h : (s.step (.decode token executor)).1 = .ok logits) : ∃ s', s.decode token executor = .ok s' := by
  cases hp : s.decode token executor with
  | ok s' => exact ⟨s', rfl⟩
  | error x => simp [step, hp] at h

/-- With a faithful executor a call returns exactly if it passes its checks. -/
theorem Holds.prefill_returns_iff {capacity : UInt64} {P : List Int32} {s : InferenceSession model} (h : s.Holds capacity P)
    (prompt : List Int32) {executor : Option (Executor α)} (hf : Faithful executor) :
    (∃ s', s.prefill prompt executor = .ok s') ↔ (model.machine capacity).checkPrefill P prompt = .ok () := by
  have hstep := h.faithful_prefill prompt hf
  constructor
  · rintro ⟨s', hs'⟩
    rw [step_prefill_ok hs'] at hstep
    obtain ⟨u, hcheck, -⟩ := bind_eq_ok.1 hstep.symm
    exact hcheck
  · intro hcheck
    rw [hcheck] at hstep
    exact prefill_ok_of_step hstep

theorem Holds.decode_returns_iff {capacity : UInt64} {P : List Int32} {s : InferenceSession model} (h : s.Holds capacity P)
    (token : Int32) {executor : Option (Executor α)} (hf : Faithful executor) :
    (∃ s', s.decode token executor = .ok s') ↔ (model.machine capacity).checkDecode P token = .ok () := by
  have hstep := h.faithful_decode token hf
  constructor
  · rintro ⟨s', hs'⟩
    rw [step_decode_ok hs'] at hstep
    obtain ⟨u, hcheck, -⟩ := bind_eq_ok.1 hstep.symm
    exact hcheck
  · intro hcheck
    rw [hcheck] at hstep
    exact decode_ok_of_step hstep

/-- The consumed tokens are a prompt `forward` accepts. -/
theorem Holds.accepted {capacity : UInt64} {P : List Int32} {s : InferenceSession model} (h : s.Holds capacity P) (hne : P ≠ []) :
    Accepted model.weights.config P :=
  ⟨hne, Nat.le_trans h.length_le h.shape.le_context, h.valid⟩

theorem Holds.prefill_forward {capacity : UInt64} {P : List Int32} {s s' : InferenceSession model} (h : s.Holds capacity P)
    {prompt : List Int32} {executor : Option (Executor α)} (hf : Faithful executor) (hok : s.prefill prompt executor = .ok s') :
    ∃ ws, model.forward (P ++ prompt) .empty = .ok ws ∧ lastRealLogits model.weights.config ws.logits = .ok s'.logits := by
  have hstep := step_prefill_ok hok
  rw [h.faithful_prefill prompt hf, bind_eq_ok] at hstep
  obtain ⟨u, hcheck, hlogits⟩ := hstep
  obtain ⟨rfl, hne, hle, hval⟩ := TokenMachine.checkPrefill_ok_iff.1 hcheck
  rw [pure_ok, Except.ok.injEq] at hlogits
  rw [List.nil_append, ← hlogits]
  exact machine_logits model capacity ⟨hne, Nat.le_trans hle h.shape.le_context, hval⟩ .empty

theorem Holds.decode_forward {capacity : UInt64} {P : List Int32} {s s' : InferenceSession model} (h : s.Holds capacity P)
    {token : Int32} {executor : Option (Executor α)} (hf : Faithful executor) (hok : s.decode token executor = .ok s') :
    ∃ ws, model.forward (P ++ [token]) .empty = .ok ws ∧ lastRealLogits model.weights.config ws.logits = .ok s'.logits := by
  have hstep := step_decode_ok hok
  rw [h.faithful_decode token hf, bind_eq_ok] at hstep
  obtain ⟨u, hcheck, hlogits⟩ := hstep
  obtain ⟨-, htok, hfull⟩ := TokenMachine.checkDecode_ok_iff.1 hcheck
  rw [pure_ok, Except.ok.injEq] at hlogits
  rw [← hlogits]
  have hlt : P.length < capacity.toNat := Nat.lt_of_le_of_ne h.length_le hfull
  refine machine_logits model capacity ⟨by simp, ?_, ?_⟩ .empty
  · rw [List.length_append, List.length_singleton]
    exact Nat.le_trans hlt h.shape.le_context
  · intro t ht
    rcases List.mem_append.1 ht with ht | ht
    · exact h.valid t ht
    · rw [List.mem_singleton.1 ht]
      exact htok

/-- **The session refines the full-prefix model.** -/
theorem session_refines_forward {capacity : UInt64} {s : InferenceSession model} {P : List Int32}
    (h : Reachable Faithful capacity s P) :
    s.size.toNat = P.length ∧
    (∀ prompt executor, Faithful executor → ((∃ s', s.prefill prompt executor = .ok s') ↔
      P = [] ∧ prompt ≠ [] ∧ prompt.length ≤ capacity.toNat ∧ ∀ t ∈ prompt, TokenValid model.weights.config t)) ∧
    (∀ token executor, Faithful executor → ((∃ s', s.decode token executor = .ok s') ↔
      P ≠ [] ∧ P.length < capacity.toNat ∧ TokenValid model.weights.config token)) ∧
    (∀ prompt executor s', Faithful executor → s.prefill prompt executor = .ok s' →
      ∃ ws, model.forward (P ++ prompt) .empty = .ok ws ∧
        lastRealLogits model.weights.config ws.logits = .ok s'.logits) ∧
    ∀ token executor s', Faithful executor → s.decode token executor = .ok s' →
      ∃ ws, model.forward (P ++ [token]) .empty = .ok ws ∧
        lastRealLogits model.weights.config ws.logits = .ok s'.logits := by
  have hh : s.Holds capacity P := h.holds fun executor hf => ⟨_, hf.follows⟩
  refine ⟨hh.size, ?_, ?_, ?_, ?_⟩
  · intro prompt executor hf
    rw [hh.prefill_returns_iff prompt hf]
    exact TokenMachine.checkPrefill_ok_iff
  · intro token executor hf
    rw [hh.decode_returns_iff token hf, TokenMachine.checkDecode_ok_iff]
    constructor
    · rintro ⟨hne, htok, hfull⟩
      exact ⟨hne, Nat.lt_of_le_of_ne hh.length_le hfull, htok⟩
    · rintro ⟨hne, hlt, htok⟩
      exact ⟨hne, htok, Nat.ne_of_lt hlt⟩
  · intro prompt executor s' hf hs'
    exact hh.prefill_forward hf hs'
  · intro token executor s' hf hs'
    exact hh.decode_forward hf hs'

theorem tinyModel_capacity : CapacityFits tinyModel.weights.config 2 := by
  refine ⟨?_, ?_, ?_⟩ <;> decide

theorem session_refines_forward_tiny : ∃ s : InferenceSession tinyModel, make tinyModel 2 = .ok s ∧
    ∃ s', s.prefill [0, 1] none = .ok s' ∧ ∃ ws, tinyModel.forward [0, 1] .empty = .ok ws ∧
      lastRealLogits tinyModel.weights.config ws.logits = .ok s'.logits := by
  obtain ⟨s, hs⟩ := (make_ok_iff tinyModel 2).2 tinyModel_capacity
  have hf : Faithful (none : Option (Executor Int)) := fun _ _ _ h => h
  obtain ⟨-, hprefill, -, hlogits, -⟩ := session_refines_forward (Reachable.make (A := Faithful) hs)
  obtain ⟨s', hs'⟩ := (hprefill [0, 1] none hf).2 ⟨rfl, by simp, by decide, tinyModel_accepts.valid⟩
  exact ⟨s, hs, s', hs', hlogits [0, 1] none s' hf hs'⟩

/-! ## Failed calls -/

/-- What a caller sees of a step: the result and the new size. -/
def observe (s : InferenceSession model) (call : Call α) : (Except Exc (List α) × UInt64) × InferenceSession model :=
  (((s.step call).1, (s.step call).2.size), (s.step call).2)

/-- The call does not pass its own checks. -/
def Rejects (s : InferenceSession model) : Call α → Prop
  | .prefill prompt _ => ∃ e, s.validatePrefill prompt = .error e
  | .decode token _ => ∃ e, s.validateDecode token = .error e
  | .reset => False

theorem step_of_rejects {s : InferenceSession model} {call : Call α} (h : s.Rejects call) : (s.step call).2 = s := by
  cases call with
  | prefill prompt executor =>
    obtain ⟨e, he⟩ := h
    simp only [step, prefill, he, keep_error, error_bind]
  | decode token executor =>
    obtain ⟨e, he⟩ := h
    simp only [step, decode, he, keep_error, error_bind]
  | reset => exact absurd h id

/-- The same view of the machine. -/
def machineObserve (m : TokenMachine α) (P : List Int32) (request : Request) :
    (Except Exc (List α) × UInt64) × List Int32 :=
  (((m.step P request).1, UInt64.ofNat (m.step P request).2.length), (m.step P request).2)

/-- **Runs.** A session answers every sequence of calls as the machine does. -/
theorem observe_run {capacity : UInt64} {P : List Int32} {s : InferenceSession model} (h : s.Holds capacity P)
    {calls : List (Call α)} {requests : List Request} (hreqs : List.Forall₂ Call.Makes calls requests) :
    (run observe s calls).1 = (run (machineObserve (model.machine capacity)) P requests).1 := by
  refine (run_sim (R := fun s P => s.Holds capacity P) ?_ hreqs h).1
  intro s P call request hs hreq
  obtain ⟨hout, hholds⟩ := step_refines hs hreq
  exact ⟨Prod.ext hout hholds.size_eq, hholds⟩

/-- Sessions that stand for the same tokens answer alike, for ever. -/
theorem observe_run_eq {capacity : UInt64} {P : List Int32} {s s' : InferenceSession model} (h : s.Holds capacity P)
    (h' : s'.Holds capacity P) {calls : List (Call α)} (hcalls : ∀ c ∈ calls, c.Allows Planned) :
    (run observe s calls).1 = (run observe s' calls).1 := by
  obtain ⟨requests, hreqs⟩ := makes_all (fun executor (hA : Planned executor) => hA) hcalls
  rw [observe_run h hreqs, observe_run h' hreqs]

/-- **A failed call has no effect on anything computed later**: rejected, it leaves the whole session as
it was; thrown midway, it leaves the size; and every later sequence of calls, failing ones included,
is answered as if it had not been made. -/
theorem failed_call_invisible {capacity : UInt64} {s : InferenceSession model} {P : List Int32}
    (h : Reachable Planned capacity s P) (call : Call α) (hcall : call.Allows Planned) (e : Exc)
    (hfail : (s.step call).1 = .error e) :
    (s.Rejects call → (s.step call).2 = s) ∧ (s.step call).2.size = s.size ∧
      ∀ later : List (Call α), (∀ c ∈ later, c.Allows Planned) →
        (run observe (s.step call).2 later).1 = (run observe s later).1 := by
  have hh : s.Holds capacity P := h.holds fun executor hA => hA
  obtain ⟨request, hreq⟩ := hcall.makes fun executor (hA : Planned executor) => hA
  obtain ⟨hout, hholds⟩ := step_refines hh hreq
  rw [hout] at hfail
  rw [TokenMachine.step_error hfail] at hholds
  refine ⟨step_of_rejects, ?_, fun later hlater => observe_run_eq hholds hh hlater⟩
  rw [hholds.size_eq, hh.size_eq]

/-- The vocabulary projection of the second token throws and leaves the negated buffer. -/
def tinyFaults : Site → Option (Fault Int)
  | .vocabulary 1 => some ⟨.runtimeError "linear", fun args => args.output.map fun x => 0 - x, by simp⟩
  | _ => none

theorem tinyFaults_prefill {s : InferenceSession tinyModel} (h : s.Holds 2 []) :
    (s.step (.prefill [0, 1] (some (faulting tinyFaults)))).1 = .error (.runtimeError "linear") := by
  rw [(step_refines h (.prefill (faulting_follows tinyFaults))).1]
  have hcheck : (tinyModel.machine 2).checkPrefill [] [0, 1] = .ok () :=
    TokenMachine.checkPrefill_ok_iff.2 ⟨rfl, by simp, by decide, tinyModel_accepts.valid⟩
  simp only [TokenMachine.step, hcheck, ok_bind]
  rfl

theorem failed_call_invisible_tiny : ∃ s : InferenceSession tinyModel, make tinyModel 2 = .ok s ∧
    (s.step (.prefill [0, 1] (some (faulting tinyFaults)))).1 = .error (.runtimeError "linear") ∧
    (run observe (s.step (.prefill [0, 1] (some (faulting tinyFaults)))).2 [.prefill [1] none, .decode 0 none]).1 =
      (run observe s [.prefill [1] none, .decode 0 none]).1 := by
  obtain ⟨s, hs⟩ := (make_ok_iff tinyModel 2).2 tinyModel_capacity
  have hfail := tinyFaults_prefill (make_holds hs).2
  obtain ⟨-, -, hlater⟩ := failed_call_invisible (.make hs) (.prefill [0, 1] (some (faulting tinyFaults)))
    ⟨_, faulting_follows tinyFaults⟩ _ hfail
  refine ⟨s, hs, hfail, hlater _ ?_⟩
  intro c hc
  simp only [List.mem_cons, List.not_mem_nil, or_false] at hc
  have hnone : Planned (none : Option (Executor Int)) := ⟨fun _ => none, fun _ _ _ h => h⟩
  rcases hc with rfl | rfl
  · exact hnone
  · exact hnone

end InferenceSession

end Gpt2Runtime
