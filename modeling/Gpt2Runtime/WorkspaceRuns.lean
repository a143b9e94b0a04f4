import Gpt2Runtime.ForwardSpec
import Gpt2Runtime.Lib.Refine
/-
# One workspace, many calls (`model.cpp:280-392`)

| here | there |
| --- | --- |
| `ForwardCall`          | one `forward` on a shared workspace: the model, the tokens, and which `resize` of `InferenceWorkspace::resize` runs out of memory, if one does |
| `resizeInterrupted`    | the workspace such a `resize` leaves: `std::vector::resize` either succeeds or changes nothing |
| `forwardInterrupted`   | `GPT2Model::forward` (`:314-326`) up to it |
| `ForwardOutcome`, `forwardStep` | what the caller sees, and the workspace it goes on with |

`forwardStep_forgets`: the outcome of a call is the same from any two workspaces, so a run's outcomes are
those of fresh workspaces (`run_forwardStep`).
-/

namespace Gpt2Runtime

open Loop Flat Word

variable {α : Type} [Scalar α]

structure ForwardCall (α : Type) [Scalar α] where
  model : GPT2Model α
  tokens : List Int32
  failsAt : Option (Fin 8)

/-- The calls of `resize` before the one that throws `std::bad_alloc`. -/
def InferenceWorkspace.resizeInterrupted (workspace : InferenceWorkspace α) (config : ModelConfig) (sequenceLength : UInt64)
    (failsAt : Fin 8) : Except (Exc × InferenceWorkspace α) (InferenceWorkspace α) := do
  let steps ← keep workspace (resizeSteps config sequenceLength)
  pure ((steps.take failsAt).foldl (fun w step => step w) workspace)

def GPT2Model.forwardInterrupted (model : GPT2Model α) (tokens : List Int32) (workspace : InferenceWorkspace α)
    (failsAt : Fin 8) : Except (Exc × InferenceWorkspace α) (InferenceWorkspace α) := do
  keep workspace (validateTokens model.weights.config tokens)
  workspace.resizeInterrupted model.weights.config (UInt64.ofNat tokens.length) failsAt

inductive ForwardOutcome (α : Type) where
  | logits (view : List α)
  | threw (e : Exc)
  | badAlloc

def forwardStep (workspace : InferenceWorkspace α) (call : ForwardCall α) : ForwardOutcome α × InferenceWorkspace α :=
  match call.failsAt with
  | none =>
    match call.model.forward call.tokens workspace with
    | .ok workspace' => (.logits workspace'.logits, workspace')
    | .error (e, workspace') => (.threw e, workspace')
  | some failsAt =>
    match call.model.forwardInterrupted call.tokens workspace failsAt with
    | .ok workspace' => (.badAlloc, workspace')
    | .error (e, workspace') => (.threw e, workspace')

/-! ## One call -/

/-- Where `resize` returns, the interrupted one gets to the failing call. -/
theorem InferenceWorkspace.resizeInterrupted_ok {config : ModelConfig} {rows : UInt64} {workspace resized : InferenceWorkspace α}
    (h : workspace.resize config rows = .ok resized) (failsAt : Fin 8) :
    ∃ ws, workspace.resizeInterrupted config rows failsAt = .ok ws := by
  obtain ⟨steps, hsteps, -⟩ := bind_eq_ok.1 h
  exact ⟨_, by rw [resizeInterrupted, hsteps, ok_bind]; rfl⟩

/-- **A rejected token list** leaves before `resize`, with a text that does not depend on the workspace. -/
theorem forwardStep_rejected {call : ForwardCall α} (h : ¬Accepted call.model.weights.config call.tokens) :
    ∃ text, ∀ workspace : InferenceWorkspace α, forwardStep workspace call = (.threw (.invalidArgument text), workspace) := by
  obtain ⟨model, tokens, failsAt⟩ := call
  obtain ⟨text, herr⟩ := validateTokens_rejects h
  refine ⟨text, ?_⟩
  intro workspace
  cases failsAt with
  | none => simp only [forwardStep, forward_of_rejected herr]
  | some k => simp only [forwardStep, GPT2Model.forwardInterrupted, herr, keep_error, error_bind]

/-- An accepted call that gets its memory returns the network's logits. -/
theorem forwardStep_logits {model : GPT2Model α} {tokens : List Int32} (h : Accepted model.weights.config tokens)
    (workspace : InferenceWorkspace α) :
    ∃ view, (forwardStep workspace ⟨model, tokens, none⟩).1 = .logits view ∧
      IsMat view tokens.length model.weights.config.paddedVocabularySize.toNat (model.network.logit (tokenAt tokens)) := by
  obtain ⟨ws, hok, -, hlogits⟩ := forward_ok h workspace
  refine ⟨ws.logits, ?_, hlogits⟩
  simp only [forwardStep, hok]

/-- An accepted call that does not get its memory says so. -/
theorem forwardStep_badAlloc {model : GPT2Model α} {tokens : List Int32} (h : Accepted model.weights.config tokens)
    (workspace : InferenceWorkspace α) (failsAt : Fin 8) :
    (forwardStep workspace ⟨model, tokens, some failsAt⟩).1 = .badAlloc := by
  have hw := model.wellFormed
  obtain ⟨resized, hresize, -⟩ := workspace.resize_ok hw.valid (h.rowsFit hw.sizes)
  obtain ⟨ws, hint⟩ := InferenceWorkspace.resizeInterrupted_ok hresize failsAt
  simp only [forwardStep, GPT2Model.forwardInterrupted, validateTokens_ok h, hint, keep_ok, ok_bind]

/-- **The workspace does not matter.** -/
theorem forwardStep_forgets (call : ForwardCall α) (workspace workspace' : InferenceWorkspace α) :
    (forwardStep workspace call).1 = (forwardStep workspace' call).1 := by
  by_cases h : Accepted call.model.weights.config call.tokens
  · obtain ⟨model, tokens, failsAt⟩ := call
    cases failsAt with
    | none =>
      obtain ⟨view, hview, hmat⟩ := forwardStep_logits h workspace
      obtain ⟨view', hview', hmat'⟩ := forwardStep_logits h workspace'
      rw [hview, hview', hmat.unique hmat']
    | some failsAt => rw [forwardStep_badAlloc h, forwardStep_badAlloc h]
  · obtain ⟨text, hstep⟩ := forwardStep_rejected h
    rw [hstep, hstep]

/-! ## Runs -/

/-- The outcomes of a run are those of fresh workspaces. -/
theorem run_forwardStep : ∀ (calls : List (ForwardCall α)) (workspace : InferenceWorkspace α),
    (Refine.run forwardStep workspace calls).1 = calls.map fun call => (forwardStep .empty call).1
  | [], _ => rfl
  | call :: calls, workspace => by
    rw [Refine.run_cons, run_forwardStep calls, List.map_cons, forwardStep_forgets call workspace .empty]

/-- **`forward` does not depend on the history of its workspace.** After any calls by any models, failed
and interrupted ones included: the outcomes were those of fresh workspaces, the next accepted call
returns `n * padded_vocabulary_size` logits equal to those of a fresh workspace, and a call with a token
list that is not accepted leaves the workspace as it was. -/
theorem forward_ignores_history (calls : List (ForwardCall α)) :
    let workspace := (Refine.run forwardStep (.empty : InferenceWorkspace α) calls).2
    (Refine.run forwardStep (.empty : InferenceWorkspace α) calls).1 =
        calls.map (fun call => (forwardStep .empty call).1) ∧
    ∀ (model : GPT2Model α) (tokens : List Int32),
      (∀ result, model.forward tokens workspace = .ok result →
        result.logits.length = tokens.length * model.weights.config.paddedVocabularySize.toNat ∧
        ∃ fresh, model.forward tokens .empty = .ok fresh ∧ fresh.logits = result.logits) ∧
      ((∃ result, model.forward tokens workspace = .ok result) ↔ Accepted model.weights.config tokens) ∧
      (¬Accepted model.weights.config tokens → ∀ failsAt, ∃ text,
        forwardStep workspace ⟨model, tokens, failsAt⟩ = (.threw (.invalidArgument text), workspace)) := by
  intro workspace
  refine ⟨run_forwardStep calls _, ?_⟩
  intro model tokens
  refine ⟨?_, forward_ok_iff model tokens workspace, ?_⟩
  · intro result hok
    have hacc := (forward_ok_iff model tokens workspace).1 ⟨result, hok⟩
    obtain ⟨result', hok', -, hmat⟩ := forward_ok hacc workspace
    obtain rfl : result = result' := Except.ok.inj (hok.symm.trans hok')
    obtain ⟨fresh, hfresh, -, hmat'⟩ := forward_ok hacc .empty
    exact ⟨hmat.1, fresh, hfresh, hmat'.unique hmat⟩
  · intro hrej failsAt
    obtain ⟨text, hstep⟩ := @forwardStep_rejected _ _ ⟨model, tokens, failsAt⟩ hrej
    exact ⟨text, hstep workspace⟩

end Gpt2Runtime
