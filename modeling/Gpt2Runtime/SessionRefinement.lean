import Gpt2Runtime.SessionSpec
/-
# A session is the list of the tokens it has consumed

`TokenMachine` is what a session is for: its whole state is the list of consumed tokens, an accepted
call returns a function of that list, a failed call changes nothing. `step_refines`: whatever a
session holds besides (scratch, logits, stale or half-written rows), each call answers as the machine
does and stays in the simulation `Holds`. The theorems about sessions are read off the machine.
-/

namespace Gpt2Runtime

open Loop Flat Word Kernels Refine

variable {α : Type}

/-! ## The machine -/

structure TokenMachine (α : Type) where
  vocabulary : Nat
  layers : Nat
  capacity : Nat
  logits : List Int32 → List α

/-- A call without its executor: where its linear operations throw. -/
inductive Request where
  | prefill (prompt : List Int32) (plan : Plan)
  | decode (token : Int32) (plan : Plan)
  | reset

def InVocabulary (V : Nat) (token : Int32) : Prop := 0 ≤ token.toInt ∧ tokenId token < V

instance (V : Nat) (token : Int32) : Decidable (InVocabulary V token) := inferInstanceAs (Decidable (_ ∧ _))

instance (V : Nat) (tokens : List Int32) : Decidable (∀ t ∈ tokens, InVocabulary V t) := List.decidableBAll _ tokens

namespace TokenMachine

/-- The first check a prompt fails. -/
def checkPrefill (m : TokenMachine α) (P prompt : List Int32) : Except Exc Unit := do
  throwIf (P ≠ []) (.logicError "prefill requires an empty session")
  throwIf (prompt = []) (.invalidArgument "prefill prompt must not be empty")
  throwIf (m.capacity < prompt.length) (.lengthError "prefill prompt exceeds session capacity")
  throwIf (¬∀ t ∈ prompt, InVocabulary m.vocabulary t)
    (.invalidArgument "input token ID is outside the real vocabulary")

def checkDecode (m : TokenMachine α) (P : List Int32) (token : Int32) : Except Exc Unit := do
  throwIf (P = []) (.logicError "decode requires a nonempty session")
  throwIf (¬InVocabulary m.vocabulary token) (.invalidArgument "input token ID is outside the real vocabulary")
  throwIf (P.length = m.capacity) (.lengthError "session KV cache is full")

theorem checkPrefill_ok_iff {m : TokenMachine α} {P prompt : List Int32} {u : Unit} :
    m.checkPrefill P prompt = .ok u ↔
      P = [] ∧ prompt ≠ [] ∧ prompt.length ≤ m.capacity ∧ ∀ t ∈ prompt, InVocabulary m.vocabulary t := by
  unfold checkPrefill
  rw [throwIf_bind_ok, throwIf_bind_ok, throwIf_bind_ok, throwIf_ok_iff, not_not, not_lt, not_not]

theorem checkDecode_ok_iff {m : TokenMachine α} {P : List Int32} {token : Int32} {u : Unit} :
    m.checkDecode P token = .ok u ↔ P ≠ [] ∧ InVocabulary m.vocabulary token ∧ P.length ≠ m.capacity := by
  unfold checkDecode
  rw [throwIf_bind_ok, throwIf_bind_ok, throwIf_ok_iff, not_not]

/-- A computation that consumes tokens only if it returns. -/
def commit (m : TokenMachine α) (P P' : List Int32) (x : Except Exc Unit) : Except Exc (List α) × List Int32 :=
  match x with
  | .ok _ => (.ok (m.logits P'), P')
  | .error e => (.error e, P)

def step (m : TokenMachine α) (P : List Int32) : Request → Except Exc (List α) × List Int32
  | .prefill prompt plan => m.commit P prompt (m.checkPrefill P prompt >>= fun _ => plan.tokens m.layers prompt.length)
  | .decode token plan => m.commit P (P ++ [token]) (m.checkDecode P token >>= fun _ => plan.token m.layers P.length)
  | .reset => (.ok [], [])

theorem commit_congr {m m' : TokenMachine α} {P P' : List Int32} {x : Except Exc Unit}
    (h : ∀ u, x = .ok u → m.logits P' = m'.logits P') : m.commit P P' x = m'.commit P P' x := by
  cases x with
  | ok u => simp only [commit, h u rfl]
  | error e => rfl

theorem commit_keeps {m : TokenMachine α} {P P' : List Int32} {x : Except Exc Unit} {Q : List Int32 → Prop} (hP : Q P)
    (hP' : ∀ u, x = .ok u → Q P') : Q (m.commit P P' x).2 := by
  cases x with
  | ok u => exact hP' u rfl
  | error e => exact hP

/-- A failed request leaves the machine as it was. -/
theorem step_error {m : TokenMachine α} {P : List Int32} {request : Request} {e : Exc}
    (h : (m.step P request).1 = .error e) : (m.step P request).2 = P := by
  have commit_error : ∀ {P' : List Int32} {x : Except Exc Unit}, (m.commit P P' x).1 = .error e → (m.commit P P' x).2 = P := by
    intro P' x hx
    cases x with
    | ok u => simp [commit] at hx
    | error e' => rfl
  cases request with
  | prefill prompt plan => exact commit_error h
  | decode token plan => exact commit_error h
  | reset => simp [step] at h

end TokenMachine

variable [Scalar α]

/-- The machine a session of a model implements: its logits are the last row of the network. -/
def GPT2Model.machine (model : GPT2Model α) (capacity : UInt64) : TokenMachine α where
  vocabulary := model.weights.config.vocabularySize.toNat
  layers := model.weights.config.numLayers.toNat
  capacity := capacity.toNat
  logits P := (List.range model.weights.config.vocabularySize.toNat).map
    (model.network.logit (tokenAt P) (P.length - 1))

theorem GPT2Model.machine_layers (model : GPT2Model α) (capacity : UInt64) :
    (model.machine capacity).layers = model.weights.config.numLayers.toNat := rfl

/-- The request a call makes. -/
inductive Call.Makes : Call α → Request → Prop
  | prefill {prompt : List Int32} {executor : Option (Executor α)} {plan : Plan} (h : Follows executor plan) :
      Makes (.prefill prompt executor) (.prefill prompt plan)
  | decode {token : Int32} {executor : Option (Executor α)} {plan : Plan} (h : Follows executor plan) :
      Makes (.decode token executor) (.decode token plan)
  | reset : Makes .reset .reset

namespace InferenceSession

variable {model : GPT2Model α}

/-! ## The simulation -/

/-- The session stands for the consumed tokens `P`. -/
structure Holds (capacity : UInt64) (P : List Int32) (s : InferenceSession model) : Prop where
  shape : s.Shape capacity
  rows : s.Rows (tokenAt P) P.length 0
  size : s.size.toNat = P.length
  length_le : P.length ≤ capacity.toNat
  valid : ∀ t ∈ P, TokenValid model.weights.config t

theorem Holds.size_eq {capacity : UInt64} {P : List Int32} {s : InferenceSession model} (h : s.Holds capacity P) :
    s.size = UInt64.ofNat P.length := by
  rw [← h.size, UInt64.ofNat_toNat]

theorem Holds.size_eq_zero {capacity : UInt64} {P : List Int32} {s : InferenceSession model} (h : s.Holds capacity P) :
    s.size = 0 ↔ P = [] := by
  rw [eq_zero_iff, h.size, List.length_eq_zero_iff]

theorem Rows.congr {tok tok' : Nat → Nat} {p : Nat} {s : InferenceSession model} (h : s.Rows tok p 0)
    (heq : ∀ q, q < p → tok q = tok' q) : s.Rows tok' p 0 := by
  intro l' p' hl' hp' hlt c hc
  have hlt' : p' < p := by
    rcases hlt with hlt | ⟨_, hlt⟩
    · exact hlt
    · exact absurd hlt (Nat.not_lt_zero _)
  rw [← model.network.qkv_congr (fun q hq => heq q (by omega)) l']
  exact h l' p' hl' hp' hlt c hc

/-- No rows, no condition. -/
theorem rows_zero (tok : Nat → Nat) (s : InferenceSession model) : s.Rows tok 0 0 := by
  intro l' p' _ _ hlt
  rcases hlt with hlt | ⟨_, hlt⟩
  · exact absurd hlt (Nat.not_lt_zero _)
  · exact absurd hlt (Nat.not_lt_zero _)

/-- `reset` forgets the tokens and keeps the sizes. -/
theorem Holds.reset {capacity : UInt64} {P : List Int32} {s : InferenceSession model} (h : s.Holds capacity P) :
    s.reset.Holds capacity [] :=
  ⟨{ h.shape with }, rows_zero _ _, rfl, Nat.zero_le _, by simp⟩

theorem Holds.validatePrefill {capacity : UInt64} {P : List Int32} {s : InferenceSession model} (h : s.Holds capacity P)
    (prompt : List Int32) : s.validatePrefill prompt = (model.machine capacity).checkPrefill P prompt := by
  have hP : (s.size ≠ 0) = (P ≠ []) := by rw [ne_eq, h.size_eq_zero]
  simp only [InferenceSession.validatePrefill, TokenMachine.checkPrefill, hP, h.shape.capacity_eq, forM_validateToken]
  rfl

theorem Holds.validateDecode {capacity : UInt64} {P : List Int32} {s : InferenceSession model} (h : s.Holds capacity P)
    (token : Int32) : s.validateDecode token = (model.machine capacity).checkDecode P token := by
  have hP : (s.size = 0) = (P = []) := by rw [h.size_eq_zero]
  have hK : (s.size = capacity) = (P.length = capacity.toNat) := by rw [← UInt64.toNat_inj, h.size]
  simp only [InferenceSession.validateDecode, TokenMachine.checkDecode, hP, hK, h.shape.capacity_eq, validateToken_eq]
  rfl

theorem Aborted.holds {capacity : UInt64} {tok : Nat → Nat} {p : Nat} {P : List Int32} {s s' : InferenceSession model}
    (h : s.Holds capacity P) (h' : s'.Aborted capacity tok p s.size) (hle : P.length ≤ p)
    (htok : ∀ q, q < P.length → tok q = tokenAt P q) : s'.Holds capacity P := by
  refine ⟨h'.shape, ?_, by rw [h'.size, h.size], h.length_le, h.valid⟩
  refine (h'.rows.mono ?_).congr htok
  rcases Nat.lt_or_ge P.length p with hlt | hge
  · exact .inl hlt
  · exact .inr ⟨by omega, Nat.le_refl 0⟩

theorem tokenAt_append_left {P : List Int32} {t : Int32} {q : Nat} (h : q < P.length) :
    tokenAt (P ++ [t]) q = tokenAt P q := by
  simp [tokenAt, List.getD_eq_getElem?_getD, List.getElem?_append_left h]

theorem tokenAt_append_right (P : List Int32) (t : Int32) : tokenAt (P ++ [t]) P.length = tokenId t := by
  simp [tokenAt, List.getD_eq_getElem?_getD]

/-- The tokens of a prompt, one after the other, from an empty session. -/
theorem prompt_agree {executor : Option (Executor α)} {plan : Plan} (hf : Follows executor plan) {capacity : UInt64}
    {prompt : List Int32} (hle : prompt.length ≤ capacity.toNat) (hval : ∀ t ∈ prompt, TokenValid model.weights.config t)
    {s : InferenceSession model} (hs : s.Shape capacity) :
    Agree (fun x e => ∃ p, AbortsAt capacity (tokenAt prompt) p s.size x e)
      (fun s' _ => s'.Aborted capacity (tokenAt prompt) prompt.length s.size ∧ (0 < prompt.length →
        IsVec s'.logits model.weights.config.vocabularySize.toNat
          (model.network.logit (tokenAt prompt) (prompt.length - 1))))
      (forSize prompt.length s fun position s => do
        let token ← keep s (read prompt position)
        consumeToken token position executor s)
      (plan.tokens model.weights.config.numLayers.toNat prompt.length) := by
  have hK64 := toNat_lt capacity
  refine Agree.forN (I := fun p (s' : InferenceSession model) (_ : Unit) =>
    s'.Aborted capacity (tokenAt prompt) p s.size ∧ (0 < p →
      IsVec s'.logits model.weights.config.vocabularySize.toNat (model.network.logit (tokenAt prompt) (p - 1))))
    ⟨⟨hs, rows_zero _ _, rfl⟩, fun h => absurd h (Nat.lt_irrefl 0)⟩ ?_
  rintro p s' u hp ⟨hab, -⟩
  have htok : tokenAt prompt p = tokenId prompt[p] := by
    simp [tokenAt, List.getD_eq_getElem?_getD, List.getElem?_eq_getElem hp]
  have hread : read prompt (UInt64.ofNat p) = .ok prompt[p] :=
    read_ok (toNat_ofNat_of_lt (by omega)) (List.getElem?_eq_getElem hp)
  simp only [hread, keep_ok, ok_bind]
  refine (consumeToken_agree hf hab (Nat.lt_of_lt_of_le hp hle) (hval _ (List.getElem_mem hp)) htok).imp
    (fun x e h => ⟨p, h⟩) ?_
  rintro s'' u ⟨hab', hlogits⟩
  exact ⟨hab', fun _ => hlogits⟩

/-- **One call.** It answers as the machine does and stays in the simulation. -/
theorem step_refines {capacity : UInt64} {P : List Int32} {s : InferenceSession model} (h : s.Holds capacity P)
    {call : Call α} {request : Request} (hreq : call.Makes request) :
    (s.step call).1 = ((model.machine capacity).step P request).1 ∧
      (s.step call).2.Holds capacity ((model.machine capacity).step P request).2 := by
  cases hreq with
  | reset => exact ⟨rfl, h.reset⟩
  | @prefill prompt executor plan hf =>
    simp only [InferenceSession.step, TokenMachine.step, InferenceSession.prefill, h.validatePrefill]
    cases hcheck : (model.machine capacity).checkPrefill P prompt with
    | error e => exact ⟨rfl, h⟩
    | ok u =>
      obtain ⟨rfl, hne, hle, hval⟩ := TokenMachine.checkPrefill_ok_iff.1 hcheck
      have hag := prompt_agree hf hle hval h.shape
      simp only [keep_ok, ok_bind]
      rw [GPT2Model.machine_layers]
      cases hplan : plan.tokens model.weights.config.numLayers.toNat prompt.length with
      | error e =>
        rw [hplan] at hag
        obtain ⟨⟨e', s'⟩, herr, p, rfl, hab⟩ := hag.of_error
        rw [herr]
        exact ⟨rfl, hab.holds h (Nat.zero_le _) fun q hq => absurd hq (Nat.not_lt_zero q)⟩
      | ok u =>
        rw [hplan] at hag
        obtain ⟨s', hok, hab, hlogits⟩ := hag.of_ok
        rw [hok]
        have hK64 := toNat_lt capacity
        have hle' : prompt.length ≤ capacity.toNat := hle
        have hlen : (UInt64.ofNat prompt.length).toNat = prompt.length := toNat_ofNat_of_lt (by omega)
        exact ⟨congrArg _ (hlogits (List.length_pos_iff.2 hne)).eq_map,
          ⟨{ hab.shape with }, hab.rows, hlen, hle, hval⟩⟩
  | @decode token executor plan hf =>
    simp only [InferenceSession.step, TokenMachine.step, InferenceSession.decode, h.validateDecode]
    cases hcheck : (model.machine capacity).checkDecode P token with
    | error e => exact ⟨rfl, h⟩
    | ok u =>
      obtain ⟨hne, htok, hfull⟩ := TokenMachine.checkDecode_ok_iff.1 hcheck
      have hlt : P.length < capacity.toNat := Nat.lt_of_le_of_ne h.length_le hfull
      have hab : s.Aborted capacity (tokenAt (P ++ [token])) P.length s.size :=
        ⟨h.shape, h.rows.congr fun q hq => (tokenAt_append_left hq).symm, rfl⟩
      have hag := consumeToken_agree hf hab hlt htok (tokenAt_append_right P token)
      simp only [keep_ok, ok_bind, h.size_eq]
      rw [GPT2Model.machine_layers]
      cases hplan : plan.token model.weights.config.numLayers.toNat P.length with
      | error e =>
        rw [hplan] at hag
        obtain ⟨⟨e', s'⟩, herr, rfl, hab'⟩ := hag.of_error
        rw [herr]
        exact ⟨rfl, hab'.holds h (Nat.le_refl _) fun q hq => tokenAt_append_left hq⟩
      | ok u =>
        rw [hplan] at hag
        obtain ⟨s', hok, hab', hlogits⟩ := hag.of_ok
        rw [hok]
        have hK64 := toNat_lt capacity
        have hsucc : (P ++ [token]).length = P.length + 1 := by simp
        have hlen : (UInt64.ofNat P.length + 1).toNat = (P ++ [token]).length := by
          rw [hsucc]
          exact toNat_add_eq (toNat_ofNat_of_lt (by omega)) rfl (by omega)
        have hlogits' : s'.logits = (model.machine capacity).logits (P ++ [token]) := by
          simp only [GPT2Model.machine, hsucc, Nat.add_sub_cancel]
          exact hlogits.eq_map
        have hval : ∀ t ∈ P ++ [token], TokenValid model.weights.config t := by
          intro t ht
          rcases List.mem_append.1 ht with ht | ht
          · exact h.valid t ht
          · rw [List.mem_singleton.1 ht]
            exact htok
        rw [← hsucc] at hab'
        exact ⟨congrArg _ hlogits', ⟨{ hab'.shape with }, hab'.rows, hlen, Nat.le_trans (Nat.le_of_eq hsucc) hlt, hval⟩⟩

/-! ## Construction -/

/-- The capacities the constructor accepts. -/
def CapacityFits (config : ModelConfig) (capacity : UInt64) : Prop :=
  0 < capacity.toNat ∧ capacity.toNat ≤ config.maxSequenceLength.toNat ∧
    8 * (config.numLayers.toNat * (capacity.toNat * config.channels.toNat)) < 2 ^ 64

/-- A new session holds no tokens. -/
theorem make_holds {capacity : UInt64} {s : InferenceSession model} (h : make model capacity = .ok s) :
    CapacityFits model.weights.config capacity ∧ s.Holds capacity [] := by
  have hsz := model.wellFormed.sizes
  unfold make at h
  simp only [bind_eq_ok, checkedMultiply_ok_iff, pure_ok, Except.ok.injEq] at h
  obtain ⟨validated, hcap, cache, hcache, c3, hc3, c4, hc4, rfl⟩ := h
  unfold validateSessionCapacity at hcap
  rw [throwIf_bind_ok, pure_ok, Except.ok.injEq] at hcap
  obtain ⟨hrange, rfl⟩ := hcap
  rw [eq_zero_iff, lt_iff] at hrange
  have hwf := KVCache.make_wellFormed hcache
  obtain ⟨hL, hK, hC, hfit, heq⟩ := (KVCache.make_ok_iff _ _ _ _).1 hcache
  have hle : capacity.toNat ≤ model.weights.config.maxSequenceLength.toNat := by omega
  have hlen : ∀ n : UInt64, (resizeVector ([] : List α) n).length = n.toNat := length_resizeVector []
  refine ⟨⟨hK, hle, hfit⟩, ⟨hwf, ?_, ?_, ?_, hle, ?_, ?_, ?_, ?_, ?_, ?_, ?_, ?_⟩, rows_zero _ _, rfl, Nat.zero_le _, by simp⟩
  · rw [heq]
  · rw [heq]
  · rw [heq]
  · exact hlen _
  · exact hlen _
  · exact (hlen _).trans hc3
  · exact hlen _
  · exact hlen _
  · exact (hlen _).trans hc4
  · exact hlen _
  · exact hlen _

/-- **Construction is exact.** -/
theorem make_ok_iff (model : GPT2Model α) (capacity : UInt64) :
    (∃ s, make model capacity = .ok s) ↔ CapacityFits model.weights.config capacity := by
  constructor
  · rintro ⟨s, hs⟩
    exact (make_holds hs).1
  · rintro ⟨hpos, hle, hfit⟩
    have hv := model.wellFormed.valid
    have hsz := model.wellFormed.sizes
    have hrange : ¬(capacity = 0 ∨ model.weights.config.maxSequenceLength < capacity) := by
      rw [eq_zero_iff, lt_iff]; omega
    have hcache : KVCache.make model.weights.config.numLayers capacity model.weights.config.channels =
        .ok (_ : KVCache α) := (KVCache.make_ok_iff _ _ _ _).2 ⟨hv.numLayers, hpos, hv.channels, hfit, rfl⟩
    have hc3 := hsz.checked_c3 "session qkv size"
    have hc4 := hsz.checked_c4 "session MLP size"
    simp only [make, validateSessionCapacity, throwIf_of_not hrange, hcache, hc3, hc4, ok_bind, pure_ok]
    exact ⟨_, rfl⟩

end InferenceSession

end Gpt2Runtime
