import Gpt2Runtime.AttentionRows
import Gpt2Runtime.SessionRuns
/-
# The cache holds rows of the forward pass (`session.cpp:146-267`, `model.cpp:344-379`)

| here | there |
| --- | --- |
| `LayerRun`             | the qkv buffer `forward` has filled at layer `l`: no later line of that pass of the loop writes it |
| `CachesForward`        | `cache_.key(l, p)` and `cache_.value(l, p)` of the counted positions are blocks of its rows |

`Holds` states the rows by index, as the network's. Both sides are read off there: the rows of a session
(`Holds.key_value`) and, pass by pass of its layer loop, the buffers of `forward` (`forwardThrough_ok`). The rows at and
beyond `size()` are not mentioned, so an aborted call may leave anything in them.
-/

namespace Gpt2Runtime

open Loop Flat Word Kernels

variable {α : Type} [Scalar α] {model : GPT2Model α}

/-- `forward` on `tokens` leaves `qkv` in the buffer of that name at layer `l`. -/
def GPT2Model.LayerRun (model : GPT2Model α) (tokens : List Int32) (workspace : InferenceWorkspace α) (l : Nat) (qkv : List α) :
    Prop :=
  ∃ ws, model.forwardThrough tokens (l + 1) workspace = .ok ws ∧ ws.qkv = qkv

theorem layerRun_ok {tokens : List Int32} (h : Accepted model.weights.config tokens) (workspace : InferenceWorkspace α) {l : Nat}
    (hl : l < model.weights.config.numLayers.toNat) :
    ∃ qkv, model.LayerRun tokens workspace l qkv ∧ IsMat qkv tokens.length (3 * model.weights.config.channels.toNat)
      (model.network.qkv (tokenAt tokens) l) := by
  obtain ⟨ws, hok, hafter⟩ := forwardThrough_ok h workspace hl
  exact ⟨ws.qkv, ⟨ws, hok, rfl⟩, hafter.qkv l rfl⟩

namespace InferenceSession

variable {capacity : UInt64} {s : InferenceSession model} {P : List Int32}

/-- For every layer and every counted position, the cached rows are the key and the value block of that
row of the qkv buffer `forward` computes at the layer for `tokens`. -/
def CachesForward (s : InferenceSession model) (tokens : List Int32) (workspace : InferenceWorkspace α) : Prop :=
  ∀ l p : UInt64, l.toNat < model.weights.config.numLayers.toNat → p.toNat < s.size.toNat →
    ∃ qkv, model.LayerRun tokens workspace l.toNat qkv ∧
      s.cache.key l p = .ok (qkvBlock qkv model.weights.config.channels.toNat 1 p.toNat) ∧
      s.cache.value l p = .ok (qkvBlock qkv model.weights.config.channels.toNat 2 p.toNat)

/-- The rows of the consumed tokens are the network's. -/
theorem Holds.key_value (h : s.Holds capacity P) {l p : UInt64} (hl : l.toNat < model.weights.config.numLayers.toNat)
    (hp : p.toNat < P.length) :
    ∃ key value, s.cache.key l p = .ok key ∧ s.cache.value l p = .ok value ∧
      IsVec key model.weights.config.channels.toNat
        (fun c => model.network.qkv (tokenAt P) l.toNat p.toNat (model.weights.config.channels.toNat + c)) ∧
      IsVec value model.weights.config.channels.toNat
        (fun c => model.network.qkv (tokenAt P) l.toNat p.toNat (2 * model.weights.config.channels.toNat + c)) := by
  have hwf := h.shape.cache
  have hl' : l.toNat < s.cache.numLayers.toNat := by rw [h.shape.numLayers]; exact hl
  have hp' : p.toNat < s.cache.capacity.toNat := by rw [h.shape.capacity_eq]; exact Nat.lt_of_lt_of_le hp h.length_le
  have hrows := h.rows l.toNat p.toNat hl' hp' (.inl hp)
  have hslot := KVCache.slot_le hl' hp'
  obtain ⟨hkey, hvalue⟩ := hwf.key_value_ok hl' hp'
  rw [← h.shape.channels]
  rw [← h.shape.channels] at hrows
  exact ⟨_, _, hkey, hvalue, .of_slice (by rw [hwf.keys]; exact hslot) fun c hc => (hrows c hc).1,
    .of_slice (by rw [hwf.values]; exact hslot) fun c hc => (hrows c hc).2⟩

/-- Any accepted list that starts with the consumed tokens has these rows. -/
theorem Holds.cachesForward (h : s.Holds capacity P) {tokens : List Int32} (hstart : P <+: tokens)
    (hacc : Accepted model.weights.config tokens) (workspace : InferenceWorkspace α) : s.CachesForward tokens workspace := by
  intro l p hl hp
  rw [h.size] at hp
  have hp' : p.toNat < tokens.length := Nat.lt_of_lt_of_le hp hstart.length_le
  obtain ⟨qkv, hrun, hqkv⟩ := layerRun_ok hacc workspace hl
  obtain ⟨key, value, hkey, hvalue, mkey, mvalue⟩ := h.key_value hl hp
  -- position `p` reads the tokens up to `p`, which are consumed
  have hcongr : model.network.qkv (tokenAt tokens) l.toNat p.toNat = model.network.qkv (tokenAt P) l.toNat p.toNat := by
    refine model.network.qkv_congr ?_ l.toNat
    intro q hq
    rw [List.prefix_iff_eq_take.1 hstart, tokenAt_take (by omega)]
  have hblock := fun block (hb : block < 3) => isVec_qkvBlock hqkv hp' hb
  rw [hcongr] at hblock
  refine ⟨qkv, hrun, ?_, ?_⟩
  · rw [hkey, mkey.unique (by simpa using hblock 1 (by omega))]
  · rw [hvalue, mvalue.unique (hblock 2 (by omega))]

/-- **The cache invariant.** In every reachable session, whatever calls were rejected and wherever a linear
operation threw, the counted rows are those `forward` computes for the consumed tokens, and for every
accepted list that starts with them. -/
theorem cache_holds_forward_rows (h : Reachable Planned capacity s P) :
    s.size.toNat = P.length ∧
    (P ≠ [] → ∀ workspace, (∃ result, model.forward P workspace = .ok result) ∧ s.CachesForward P workspace) ∧
    ∀ extension workspace result, model.forward (P ++ extension) workspace = .ok result →
      s.CachesForward (P ++ extension) workspace := by
  have hh : s.Holds capacity P := h.holds fun executor hA => hA
  refine ⟨hh.size, ?_, ?_⟩
  · intro hne workspace
    have hacc := hh.accepted hne
    exact ⟨(forward_ok_iff model P workspace).2 hacc, hh.cachesForward (List.prefix_refl P) hacc workspace⟩
  · intro extension workspace result hok
    exact hh.cachesForward (List.prefix_append P extension) ((forward_ok_iff model _ workspace).1 ⟨result, hok⟩) workspace

/-- A prefill that throws with two rows written, then another prompt: row 0 is of the new one. -/
theorem cache_holds_forward_rows_tiny : ∃ s : InferenceSession tinyModel, make tinyModel 2 = .ok s ∧
    let aborted := (s.step (.prefill [0, 1] (some (faulting tinyFaults)))).2
    let session := (aborted.step (.prefill [1] none)).2
    session.size.toNat = 1 ∧ session.CachesForward [1, 0] .empty := by
  obtain ⟨s, hs⟩ := (make_ok_iff tinyModel 2).2 tinyModel_capacity
  have hf : Faithful (none : Option (Executor Int)) := fun _ _ _ h => h
  have haborted : Reachable Planned 2 (s.step (.prefill [0, 1] (some (faulting tinyFaults)))).2 [] := by
    have hcall : (Call.prefill [0, 1] (some (faulting tinyFaults))).Allows Planned := ⟨_, faulting_follows tinyFaults⟩
    have hstep := (Reachable.make hs).step hcall
    rwa [tinyFaults_prefill (make_holds hs).2] at hstep
  have hsession : Reachable Planned 2
      (((s.step (.prefill [0, 1] (some (faulting tinyFaults)))).2).step (.prefill [1] none)).2 [1] := by
    have hcall : (Call.prefill [1] (none : Option (Executor Int))).Allows Planned := ⟨_, hf.follows⟩
    have hcheck : (tinyModel.machine 2).checkPrefill [] [1] = .ok () :=
      TokenMachine.checkPrefill_ok_iff.2 ⟨rfl, by simp, by decide, fun t ht => tinyModel_accepts.valid t (by simp_all)⟩
    have hstep := haborted.step hcall
    rwa [(haborted.holds fun executor hA => hA).faithful_prefill [1] hf, hcheck] at hstep
  obtain ⟨hsize, -, hextension⟩ := cache_holds_forward_rows hsession
  have haccepted : Accepted tinyModel.weights.config ([1] ++ [0]) :=
    ⟨by simp, by decide, fun t ht => tinyModel_accepts.valid t (by simp_all [or_comm])⟩
  obtain ⟨result, hok⟩ := (forward_ok_iff tinyModel _ .empty).2 haccepted
  exact ⟨s, hs, hsize, hextension [0] .empty result hok⟩

end InferenceSession

end Gpt2Runtime
