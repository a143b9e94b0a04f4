import Gpt2Runtime.GenerateSpec
/-
# Laws of sessions (`session.cpp`)

| here | there |
| --- | --- |
| `capacityOf`, `cacheBytes` | `InferenceSession::capacity`, `cache_bytes` (`session.cpp:193-199`) |
| `Decodes`               | a `decode` for each token, through any executors that do not throw |

A prompt can be cut anywhere: one `prefill`, or a shorter one and a `decode` for each token left, are accepted
together and leave sessions nothing can tell apart (`prefill_splits`). A larger capacity changes no answer but the
two length errors (`capacity_invisible`). No call moves or resizes a buffer (`footprint_constant`).
-/

namespace Gpt2Runtime

open Loop Flat Word Kernels Refine

variable {α : Type} [Scalar α]

namespace InferenceSession

variable {model : GPT2Model α} {capacity : UInt64}

def capacityOf (s : InferenceSession model) : UInt64 := s.cache.capacity

/-- `cache_.storage_float_count() * sizeof(float)`. -/
def cacheBytes (s : InferenceSession model) : UInt64 := s.cache.storageFloatCount * 4

/-! ## Cutting a prompt -/

/-- The calls decode the tokens one after the other. -/
def Decodes (tokens : List Int32) (calls : List (Call α)) : Prop :=
  List.Forall₂ (fun token call => ∃ executor, Faithful executor ∧ call = .decode token executor) tokens calls

/-- Every call returned logits. -/
def AllReturned (outputs : List (Except Exc (List α) × UInt64)) : Prop := ∀ r ∈ outputs, ∃ logits, r.1 = .ok logits

theorem Holds.step_decode {s : InferenceSession model} {P : List Int32} (h : s.Holds capacity P) {token : Int32}
    {executor : Option (Executor α)} (hf : Faithful executor) (hne : P ≠ []) :
    (TokenValid model.weights.config token ∧ P.length < capacity.toNat ∧
      (s.step (.decode token executor)).1 = .ok (model.logits (P ++ [token])) ∧
      (s.step (.decode token executor)).2.Holds capacity (P ++ [token])) ∨
    (¬(TokenValid model.weights.config token ∧ P.length < capacity.toNat) ∧
      ∃ e, (s.step (.decode token executor)).1 = .error e) := by
  by_cases hok : TokenValid model.weights.config token ∧ P.length < capacity.toNat
  · obtain ⟨s', hdecode, hholds, hlogits⟩ := h.decode_ok hne hok.2 hok.1 hf
    exact .inl ⟨hok.1, hok.2, (step_decode_ok hdecode).trans (congrArg _ hlogits), by simpa only [step, hdecode] using hholds⟩
  · refine .inr ⟨hok, ?_⟩
    cases hout : (s.step (.decode token executor)).1 with
    | error e => exact ⟨e, rfl⟩
    | ok logits =>
      obtain ⟨-, hval, hfull⟩ := TokenMachine.checkDecode_ok_iff.1 ((h.decode_returns_iff token hf).1 (decode_ok_of_step hout))
      exact absurd ⟨hval, Nat.lt_of_le_of_ne h.length_le hfull⟩ hok

theorem Holds.step_prefill {s : InferenceSession model} (h : s.Holds capacity []) {prompt : List Int32}
    {executor : Option (Executor α)} (hf : Faithful executor) (hne : prompt ≠ []) :
    (prompt.length ≤ capacity.toNat ∧ (∀ t ∈ prompt, TokenValid model.weights.config t) ∧
      (s.step (.prefill prompt executor)).1 = .ok (model.logits prompt) ∧
      (s.step (.prefill prompt executor)).2.Holds capacity prompt) ∨
    (¬(prompt.length ≤ capacity.toNat ∧ ∀ t ∈ prompt, TokenValid model.weights.config t) ∧
      ∃ e, (s.step (.prefill prompt executor)).1 = .error e) := by
  by_cases hok : prompt.length ≤ capacity.toNat ∧ ∀ t ∈ prompt, TokenValid model.weights.config t
  · obtain ⟨s', hprefill, hholds, hlogits⟩ := h.prefill_ok hne hok.1 hok.2 hf
    exact .inl ⟨hok.1, hok.2, (step_prefill_ok hprefill).trans (congrArg _ hlogits), by simpa only [step, hprefill] using hholds⟩
  · refine .inr ⟨hok, ?_⟩
    cases hout : (s.step (.prefill prompt executor)).1 with
    | error e => exact ⟨e, rfl⟩
    | ok logits =>
      obtain ⟨-, -, hle, hval⟩ := TokenMachine.checkPrefill_ok_iff.1 ((h.prefill_returns_iff prompt hf).1 (prefill_ok_of_step hout))
      exact absurd ⟨hle, hval⟩ hok

/-- The logits after each token. -/
def answers (logits : List Int32 → List α) : List Int32 → List Int32 → List (List α)
  | _, [] => []
  | P, token :: tokens => logits (P ++ [token]) :: answers logits (P ++ [token]) tokens

omit [Scalar α] in
theorem getLast?_answers (logits : List Int32 → List α) (P tokens : List Int32) :
    (logits P :: answers logits P tokens).getLast? = some (logits (P ++ tokens)) := by
  induction tokens generalizing P with
  | nil => rw [List.append_nil]; rfl
  | cons token tokens ih =>
    rw [answers, List.getLast?_cons_cons, ih, List.append_assoc, List.singleton_append]

/-- **Decoding token by token**: the calls all return exactly if the tokens are valid and there is room for them. -/
theorem Holds.decodes {s : InferenceSession model} {P tokens : List Int32} {calls : List (Call α)} (h : s.Holds capacity P)
    (hne : P ≠ []) (hcalls : Decodes tokens calls) :
    (AllReturned (run observe s calls).1 ↔
      (∀ t ∈ tokens, TokenValid model.weights.config t) ∧ P.length + tokens.length ≤ capacity.toNat) ∧
    (AllReturned (run observe s calls).1 → (run observe s calls).2.Holds capacity (P ++ tokens) ∧
      (run observe s calls).1.map Prod.fst = (answers model.logits P tokens).map .ok) := by
  induction hcalls generalizing s P with
  | nil =>
    refine ⟨?_, fun _ => ⟨by rwa [List.append_nil], rfl⟩⟩
    simpa [AllReturned, run] using h.length_le
  | @cons token call tokens calls hcall _ ih =>
    obtain ⟨executor, hf, rfl⟩ := hcall
    rw [run_cons]
    simp only [AllReturned, List.forall_mem_cons, List.map_cons, List.length_cons, answers, observe]
    rcases h.step_decode hf hne with ⟨hval, hlt, hout, hholds⟩ | ⟨hno, e, hout⟩
    · obtain ⟨hiff, hafter⟩ := ih hholds (by simp)
      rw [List.length_append, List.length_singleton] at hiff
      rw [List.append_assoc, List.singleton_append] at hafter
      constructor
      · constructor
        · rintro ⟨-, hall⟩
          obtain ⟨hvals, hle⟩ := hiff.1 hall
          exact ⟨⟨hval, hvals⟩, by omega⟩
        · rintro ⟨⟨-, hvals⟩, hle⟩
          exact ⟨⟨_, hout⟩, hiff.2 ⟨hvals, by omega⟩⟩
      · rintro ⟨-, hall⟩
        obtain ⟨hend, hanswers⟩ := hafter hall
        exact ⟨hend, congrArg₂ _ hout hanswers⟩
    · have herror : ¬∃ logits, (s.step (.decode token executor)).1 = .ok logits := by
        rintro ⟨logits, hlogits⟩
        rw [hout] at hlogits
        cases hlogits
      constructor
      · constructor
        · exact fun hall => absurd hall.1 herror
        · rintro ⟨⟨hval, -⟩, hle⟩
          exact absurd ⟨hval, by omega⟩ hno
      · exact fun hall => absurd hall.1 herror

/-- **A prompt can be cut anywhere.** From every empty session, one `prefill` of a prompt and a `prefill` of its
beginning with a `decode` for each token left are accepted together; the last call returns the logits of the whole
prompt, and the sessions left answer all later calls alike, failing ones included. -/
theorem prefill_splits {s : InferenceSession model} (h : Reachable Planned capacity s []) {head tail : List Int32}
    (hne : head ≠ []) {whole part : Option (Executor α)} (hwhole : Faithful whole) (hpart : Faithful part)
    {calls : List (Call α)} (hcalls : Decodes tail calls) :
    ((∃ logits, (s.step (.prefill (head ++ tail) whole)).1 = .ok logits) ↔
      AllReturned (run observe s (.prefill head part :: calls)).1) ∧
    ∀ logits, (s.step (.prefill (head ++ tail) whole)).1 = .ok logits →
      ((run observe s (.prefill head part :: calls)).1.map Prod.fst).getLast? = some (.ok logits) ∧
      ∀ later : List (Call α), (∀ c ∈ later, c.Allows Planned) →
        (run observe (s.step (.prefill (head ++ tail) whole)).2 later).1 =
          (run observe (run observe s (.prefill head part :: calls)).2 later).1 := by
  have hholds : s.Holds capacity [] := h.holds fun executor hA => hA
  have hsplit := hholds.step_prefill hpart hne
  rw [run_cons]
  simp only [AllReturned, List.forall_mem_cons, List.map_cons, observe]
  rcases hholds.step_prefill hwhole (List.append_ne_nil_of_left_ne_nil hne tail) with
    ⟨hle, hval, hout, hend⟩ | ⟨hno, e, hout⟩
  · -- the whole prompt is accepted, and so are its parts
    rw [List.length_append] at hle
    rw [List.forall_mem_append] at hval
    rcases hsplit with ⟨-, -, hout', hholds'⟩ | ⟨hno, -⟩
    · obtain ⟨hiff, hafter⟩ := hholds'.decodes hne hcalls
      have hall := hiff.2 ⟨hval.2, hle⟩
      obtain ⟨hend', hanswers⟩ := hafter hall
      refine ⟨⟨fun _ => ⟨⟨_, hout'⟩, hall⟩, fun _ => ⟨_, hout⟩⟩, fun logits hlogits => ⟨?_, fun later hlater => ?_⟩⟩
      · rw [hout, Except.ok.injEq] at hlogits
        rw [hout', show (List.map Prod.fst _) = _ from hanswers, ← List.map_cons (f := Except.ok), List.getLast?_map,
          getLast?_answers, ← hlogits]
        rfl
      · exact observe_run_eq hend hend' hlater
    · exact absurd ⟨by omega, hval.1⟩ hno
  · -- the whole prompt is rejected, and so is one of the parts
    have herror : ¬∃ logits, (s.step (.prefill (head ++ tail) whole)).1 = .ok logits := by
      rintro ⟨logits, hlogits⟩
      rw [hout] at hlogits
      cases hlogits
    refine ⟨⟨fun hlogits => absurd hlogits herror, ?_⟩, fun logits hlogits => absurd ⟨logits, hlogits⟩ herror⟩
    rintro ⟨⟨logits, hlogits⟩, hall⟩
    rcases hsplit with ⟨-, hval, -, hholds'⟩ | ⟨-, e', hout'⟩
    · obtain ⟨hvals, hle⟩ := (hholds'.decodes hne hcalls).1.1 hall
      exact absurd ⟨by rw [List.length_append]; exact hle, List.forall_mem_append.2 ⟨hval, hvals⟩⟩ hno
    · rw [hout'] at hlogits
      cases hlogits

theorem prefill_splits_tiny : ∃ s : InferenceSession tinyModel, make tinyModel 2 = .ok s ∧ ∃ logits,
    (s.step (.prefill [0, 1] none)).1 = .ok logits ∧
    ((run observe s [.prefill [0] (some (faulting fun _ => none)), .decode 1 none]).1.map Prod.fst).getLast? = some (.ok logits) := by
  obtain ⟨s, hs⟩ := (make_ok_iff tinyModel 2).2 tinyModel_capacity
  have hnone : Faithful (none : Option (Executor Int)) := fun _ _ _ h => h
  have hsome : Faithful (some (faulting fun _ => none) : Option (Executor Int)) := fun _ _ _ h => h
  have hcalls : Decodes [1] [Call.decode 1 (none : Option (Executor Int))] := .cons ⟨_, hnone, rfl⟩ .nil
  obtain ⟨-, hlast⟩ := prefill_splits (.make hs) (show [(0 : Int32)] ≠ [] by decide) hnone hsome hcalls
  obtain ⟨s', hs'⟩ := ((make_holds hs).2.prefill_returns_iff [0, 1] hnone).2
    (TokenMachine.checkPrefill_ok_iff.2 ⟨rfl, by simp, by decide, tinyModel_accepts.valid⟩)
  exact ⟨s, hs, _, step_prefill_ok hs', (hlast _ (step_prefill_ok hs')).1⟩

/-! ## The capacity -/

end InferenceSession

namespace TokenMachine

omit [Scalar α] in
/-- A machine with more room runs the same checks. -/
theorem checkPrefill_of_le {m m' : TokenMachine α} (hvocabulary : m'.vocabulary = m.vocabulary) (hle : m.capacity ≤ m'.capacity)
    {P prompt : List Int32} (hroom : ∀ what, m.checkPrefill P prompt ≠ .error (.lengthError what)) :
    m'.checkPrefill P prompt = m.checkPrefill P prompt := by
  unfold checkPrefill at hroom ⊢
  rw [hvocabulary]
  by_cases hP : P ≠ []
  · simp only [throwIf_of hP, error_bind]
  by_cases hprompt : prompt = []
  · simp only [throwIf_of_not hP, throwIf_of hprompt, ok_bind, error_bind]
  by_cases hlong : m.capacity < prompt.length
  · refine absurd ?_ (hroom "prefill prompt exceeds session capacity")
    simp only [throwIf_of_not hP, throwIf_of_not hprompt, throwIf_of hlong, ok_bind, error_bind]
  · have hlong' : ¬m'.capacity < prompt.length := by omega
    simp only [throwIf_of_not hP, throwIf_of_not hprompt, throwIf_of_not hlong, throwIf_of_not hlong', ok_bind]

omit [Scalar α] in
theorem checkDecode_of_le {m m' : TokenMachine α} (hvocabulary : m'.vocabulary = m.vocabulary) (hle : m.capacity ≤ m'.capacity)
    {P : List Int32} {token : Int32} (hlength : P.length ≤ m.capacity)
    (hroom : ∀ what, m.checkDecode P token ≠ .error (.lengthError what)) : m'.checkDecode P token = m.checkDecode P token := by
  unfold checkDecode at hroom ⊢
  rw [hvocabulary]
  by_cases hP : P = []
  · simp only [throwIf_of hP, error_bind]
  by_cases htoken : ¬InVocabulary m.vocabulary token
  · simp only [throwIf_of_not hP, throwIf_of htoken, ok_bind, error_bind]
  by_cases hfull : P.length = m.capacity
  · refine absurd ?_ (hroom "session KV cache is full")
    simp only [throwIf_of_not hP, throwIf_of_not htoken, throwIf_of hfull, ok_bind]
  · have hfull' : ¬P.length = m'.capacity := by omega
    simp only [throwIf_of_not hP, throwIf_of_not htoken, throwIf_of_not hfull, throwIf_of_not hfull', ok_bind]

omit [Scalar α] in
/-- **A step that does not run out of room** is the same with more room. -/
theorem step_of_le {m m' : TokenMachine α} (hvocabulary : m'.vocabulary = m.vocabulary) (hlayers : m'.layers = m.layers)
    (hlogits : m'.logits = m.logits) (hle : m.capacity ≤ m'.capacity) {P : List Int32} (hlength : P.length ≤ m.capacity)
    {request : Request} (hroom : ∀ what, (m.step P request).1 ≠ .error (.lengthError what)) :
    m'.step P request = m.step P request := by
  have hcommit : ∀ (P' : List Int32) (x : Except Exc Unit), m'.commit P P' x = m.commit P P' x :=
    fun P' x => commit_congr fun _ _ => congrFun hlogits P'
  cases request with
  | prefill prompt plan =>
    have hcheck : ∀ what, m.checkPrefill P prompt ≠ .error (.lengthError what) := fun what herror =>
      hroom what (by simp only [step, herror, error_bind]; rfl)
    simp only [step, checkPrefill_of_le hvocabulary hle hcheck, hlayers, hcommit]
  | decode token plan =>
    have hcheck : ∀ what, m.checkDecode P token ≠ .error (.lengthError what) := fun what herror =>
      hroom what (by simp only [step, herror, error_bind]; rfl)
    simp only [step, checkDecode_of_le hvocabulary hle hlength hcheck, hlayers, hcommit]
  | reset => rfl

end TokenMachine

namespace InferenceSession

variable {model : GPT2Model α} {capacity : UInt64}

/-- **The capacity shows in length errors only.** Two sessions of different capacities that have consumed the same
tokens answer every sequence of calls alike as long as the smaller one reports no length error, whatever the
executors do. -/
theorem capacity_invisible {larger : UInt64} (hle : capacity.toNat ≤ larger.toNat) {s s' : InferenceSession model} {P : List Int32}
    (h : Reachable Planned capacity s P) (h' : Reachable Planned larger s' P) {calls : List (Call α)}
    (hcalls : ∀ c ∈ calls, c.Allows Planned)
    (hroom : ∀ r ∈ (run observe s calls).1, ∀ what, r.1 ≠ .error (.lengthError what)) :
    (run observe s' calls).1 = (run observe s calls).1 := by
  have hholds : s.Holds capacity P := h.holds fun executor hA => hA
  have hholds' : s'.Holds larger P := h'.holds fun executor hA => hA
  clear h h'
  induction calls generalizing s s' P with
  | nil => rfl
  | cons call calls ih =>
    obtain ⟨request, hreq⟩ := (hcalls call List.mem_cons_self).makes fun executor (hA : Planned executor) => hA
    obtain ⟨hout, hnext⟩ := step_refines hholds hreq
    obtain ⟨hout', hnext'⟩ := step_refines hholds' hreq
    rw [run_cons] at hroom
    have hfirst : ∀ what, ((model.machine capacity).step P request).1 ≠ .error (.lengthError what) := by
      intro what
      rw [← hout]
      exact hroom _ List.mem_cons_self what
    have hsame : (model.machine larger).step P request = (model.machine capacity).step P request :=
      TokenMachine.step_of_le (by rfl) (by rfl) (by rfl) hle hholds.length_le hfirst
    rw [hsame] at hout' hnext'
    rw [run_cons, run_cons]
    refine congrArg₂ List.cons (Prod.ext (hout'.trans hout.symm) (hnext'.size_eq.trans hnext.size_eq.symm)) ?_
    exact ih (fun c hc => hcalls c (List.mem_cons_of_mem _ hc)) (fun r hr => hroom r (List.mem_cons_of_mem _ hr)) hnext hnext'

theorem tinyModel_one : CapacityFits tinyModel.weights.config 1 := by
  refine ⟨?_, ?_, ?_⟩ <;> decide

theorem capacity_invisible_tiny : ∃ s s' : InferenceSession tinyModel, make tinyModel 1 = .ok s ∧ make tinyModel 2 = .ok s' ∧
    (run observe s' [.decode 0 none, .prefill [1] none, .reset]).1 = (run observe s [.decode 0 none, .prefill [1] none, .reset]).1 := by
  obtain ⟨s, hs⟩ := (make_ok_iff tinyModel 1).2 tinyModel_one
  obtain ⟨s', hs'⟩ := (make_ok_iff tinyModel 2).2 tinyModel_capacity
  have hnone : Faithful (none : Option (Executor Int)) := fun _ _ _ h => h
  have hcalls : List.Forall₂ Call.Makes [Call.decode 0 none, .prefill [1] none, .reset]
      [.decode 0 fun _ => none, .prefill [1] fun _ => none, .reset] :=
    .cons (.decode hnone.follows) (.cons (.prefill hnone.follows) (.cons .reset .nil))
  refine ⟨s, s', hs, hs', capacity_invisible (by decide) (.make hs) (.make hs') ?_ ?_⟩
  · intro c hc
    simp only [List.mem_cons, List.not_mem_nil, or_false] at hc
    rcases hc with rfl | rfl | rfl
    · exact ⟨_, hnone.follows⟩
    · exact ⟨_, hnone.follows⟩
    · trivial
  · have hcheck : (tinyModel.machine 1).checkPrefill [] [1] = .ok () :=
      TokenMachine.checkPrefill_ok_iff.2 ⟨rfl, by simp, by decide, fun t ht => tinyModel_accepts.valid t (by simp_all)⟩
    rw [observe_run (make_holds hs).2 hcalls]
    simp [run, machineObserve, TokenMachine.step, TokenMachine.checkDecode, TokenMachine.commit, hcheck, plan_tokens_none]

/-! ## The buffers -/

/-- Whether it returns or throws, the operation leaves a state with `Q`. -/
def Leaves {σ : Type} (Q : σ → Prop) (x : Except (Exc × σ) σ) : Prop :=
  (∀ s, x = .ok s → Q s) ∧ ∀ e s, x = .error (e, s) → Q s

namespace Leaves

variable {σ β : Type} {Q : σ → Prop}

theorem of_ok {s : σ} (h : Q s) : Leaves Q (.ok s) := by
  constructor
  · intro s' heq
    exact Except.ok.inj heq ▸ h
  · intro e s' heq
    cases heq

theorem of_error {e : Exc} {s : σ} (h : Q s) : Leaves Q (.error (e, s)) := by
  constructor
  · intro s' heq
    cases heq
  · intro e' s' heq
    cases heq
    exact h

theorem of_forall (h : ∀ s, Q s) {x : Except (Exc × σ) σ} : Leaves Q x := ⟨fun s _ => h s, fun _ s _ => h s⟩

theorem bind {x : Except (Exc × σ) σ} {f : σ → Except (Exc × σ) σ} (hx : Leaves Q x) (hf : ∀ s, Q s → Leaves Q (f s)) :
    Leaves Q (x >>= f) := by
  cases x with
  | ok s => exact hf s (hx.1 s rfl)
  | error r => exact of_error (hx.2 r.1 r.2 rfl)

/-- A computation that does not touch the state. -/
theorem keep {s : σ} (hs : Q s) {y : Except Exc β} {f : β → Except (Exc × σ) σ} (hf : ∀ b, y = .ok b → Leaves Q (f b)) :
    Leaves Q (Gpt2Runtime.keep s y >>= f) := by
  cases y with
  | ok b => exact hf b rfl
  | error e => exact of_error hs

theorem into {set : β → σ} {r : Except (Exc × β) β} (h : Leaves (fun b => Q (set b)) r) : Leaves Q (Gpt2Runtime.into set r) := by
  cases r with
  | ok b => exact of_ok (h.1 b rfl)
  | error x => exact of_error (h.2 x.1 x.2 rfl)

theorem forSize {n : Nat} {s : σ} {body : UInt64 → σ → Except (Exc × σ) σ} (hs : Q s)
    (hbody : ∀ i s, Q s → Leaves Q (body i s)) : Leaves Q (Word.forSize n s body) := by
  unfold Word.forSize
  induction n with
  | zero => exact of_ok hs
  | succ n ih => exact bind ih fun s' hs' => hbody _ s' hs'

end Leaves

variable {floats : UInt64}

/-- The cache was built with `floats` floats. -/
def CacheOf (floats : UInt64) (s : InferenceSession model) : Prop := s.cache.storageFloatCount = floats

omit [Scalar α] in
theorem store_leaves (cache : KVCache α) (layer position : UInt64) (keyValues valueValues : List α) :
    Leaves (fun stored => stored.storageFloatCount = cache.storageFloatCount)
      (cache.store layer position keyValues valueValues) := by
  unfold KVCache.store
  refine Leaves.keep (by exact rfl) fun _ _ => ?_
  refine Leaves.keep (by exact rfl) fun offset _ => ?_
  refine Leaves.keep (by exact rfl) fun keys _ => ?_
  refine Leaves.keep (by exact rfl) fun values _ => ?_
  exact Leaves.of_ok rfl

theorem consumeLayer_leaves (executor : Option (Executor α)) (position c3 c4 layer : UInt64) {s : InferenceSession model}
    (h : CacheOf floats s) : Leaves (CacheOf floats) (consumeLayer executor position c3 c4 layer s) := by
  unfold consumeLayer
  refine Leaves.keep h fun w _ => ?_
  refine Leaves.keep h fun normalized _ => ?_
  refine Leaves.bind (Leaves.into (.of_forall fun _ => h)) fun s1 h1 => ?_
  refine Leaves.keep h1 fun keyValues _ => ?_
  refine Leaves.keep h1 fun valueValues _ => ?_
  have hstore := store_leaves s1.cache layer position keyValues valueValues
  rw [h1] at hstore
  refine Leaves.bind (Leaves.into (by exact hstore)) fun s2 h2 => ?_
  refine Leaves.keep h2 fun query _ => ?_
  refine Leaves.keep h2 fun keys _ => ?_
  refine Leaves.keep h2 fun values _ => ?_
  refine Leaves.keep h2 fun attended _ => ?_
  refine Leaves.bind (Leaves.into (.of_forall fun _ => h2)) fun s3 h3 => ?_
  refine Leaves.keep h3 fun residual _ => ?_
  refine Leaves.keep (by exact h3) fun normalized _ => ?_
  refine Leaves.bind (Leaves.into (.of_forall fun _ => h3)) fun s4 h4 => ?_
  refine Leaves.bind (Leaves.into (.of_forall fun _ => h4)) fun s5 h5 => ?_
  refine Leaves.keep h5 fun residual _ => ?_
  exact Leaves.of_ok h5

theorem consumeToken_leaves (token : Int32) (position : UInt64) (executor : Option (Executor α)) {s : InferenceSession model}
    (h : CacheOf floats s) : Leaves (CacheOf floats) (consumeToken token position executor s) := by
  unfold consumeToken
  refine Leaves.keep h fun c3 _ => ?_
  refine Leaves.keep h fun c4 _ => ?_
  refine Leaves.keep h fun wte _ => ?_
  refine Leaves.keep h fun wpe _ => ?_
  refine Leaves.keep h fun residual _ => ?_
  refine Leaves.bind (Leaves.forSize (by exact h) fun layer _ h => consumeLayer_leaves executor position c3 c4 layer h) ?_
  intro s1 h1
  refine Leaves.keep h1 fun lnfw _ => ?_
  refine Leaves.keep h1 fun lnfb _ => ?_
  refine Leaves.keep h1 fun normalized _ => ?_
  refine Leaves.keep (by exact h1) fun rows _ => ?_
  exact Leaves.into (.of_forall fun _ => h1)

theorem prefill_leaves (prompt : List Int32) (executor : Option (Executor α)) {s : InferenceSession model} (h : CacheOf floats s) :
    Leaves (CacheOf floats) (s.prefill prompt executor) := by
  unfold prefill
  refine Leaves.keep h fun _ _ => ?_
  refine Leaves.bind (Leaves.forSize h fun position s h => ?_) fun s1 h1 => Leaves.of_ok h1
  exact Leaves.keep h fun token _ => consumeToken_leaves token position executor h

theorem decode_leaves (token : Int32) (executor : Option (Executor α)) {s : InferenceSession model} (h : CacheOf floats s) :
    Leaves (CacheOf floats) (s.decode token executor) := by
  unfold decode
  refine Leaves.keep h fun _ _ => ?_
  exact Leaves.bind (consumeToken_leaves token s.size executor h) fun s1 h1 => Leaves.of_ok h1

/-- No call changes the number of floats, whatever the executor does. -/
theorem step_cacheOf {s : InferenceSession model} (h : CacheOf floats s) (call : Call α) : CacheOf floats (s.step call).2 := by
  cases call with
  | prefill prompt executor =>
    have hleaves := prefill_leaves prompt executor h
    cases hrun : s.prefill prompt executor with
    | ok s' => simpa only [step, hrun] using hleaves.1 s' hrun
    | error r => simpa only [step, hrun] using hleaves.2 r.1 r.2 hrun
  | decode token executor =>
    have hleaves := decode_leaves token executor h
    cases hrun : s.decode token executor with
    | ok s' => simpa only [step, hrun] using hleaves.1 s' hrun
    | error r => simpa only [step, hrun] using hleaves.2 r.1 r.2 hrun
  | reset => exact h

theorem make_cacheOf {s : InferenceSession model} (h : make model capacity = .ok s) :
    CacheOf (2 * (model.weights.config.numLayers * (capacity * model.weights.config.channels))) s := by
  unfold make at h
  obtain ⟨validated, hvalid, h⟩ := bind_eq_ok.1 h
  unfold validateSessionCapacity at hvalid
  rw [throwIf_bind_ok] at hvalid
  cases hvalid.2
  obtain ⟨cache, hcache, h⟩ := bind_eq_ok.1 h
  obtain ⟨-, -, -, -, rfl⟩ := (KVCache.make_ok_iff _ _ _ _).1 hcache
  obtain ⟨c3, -, h⟩ := bind_eq_ok.1 h
  obtain ⟨c4, -, h⟩ := bind_eq_ok.1 h
  cases h
  rfl

theorem Reachable.cacheOf {A : Option (Executor α) → Prop} {s : InferenceSession model} {P : List Int32}
    (h : Reachable A capacity s P) :
    CapacityFits model.weights.config capacity ∧
      CacheOf (2 * (model.weights.config.numLayers * (capacity * model.weights.config.channels))) s := by
  induction h with
  | make hmake => exact ⟨(make_holds hmake).1, make_cacheOf hmake⟩
  | step _ _ ih => exact ⟨ih.1, step_cacheOf ih.2 _⟩

/-- `cacheBytes` does not wrap. -/
theorem Reachable.cacheBytes {A : Option (Executor α) → Prop} {s : InferenceSession model} {P : List Int32}
    (h : Reachable A capacity s P) : s.cacheBytes.toNat =
      8 * (model.weights.config.numLayers.toNat * (capacity.toNat * model.weights.config.channels.toNat)) := by
  obtain ⟨hfits, hfloats⟩ := h.cacheOf
  have hfit := hfits.2.2
  have hinner : capacity.toNat * model.weights.config.channels.toNat ≤
      model.weights.config.numLayers.toNat * (capacity.toNat * model.weights.config.channels.toNat) :=
    Nat.le_mul_of_pos_left _ model.wellFormed.valid.numLayers
  have hrow : (capacity * model.weights.config.channels).toNat = capacity.toNat * model.weights.config.channels.toNat :=
    toNat_mul_of_lt (by omega)
  have htotal : (model.weights.config.numLayers * (capacity * model.weights.config.channels)).toNat =
      model.weights.config.numLayers.toNat * (capacity.toNat * model.weights.config.channels.toNat) := by
    rw [toNat_mul_of_lt (by rw [hrow]; omega), hrow]
  unfold InferenceSession.cacheBytes
  rw [hfloats]
  simp only [UInt64.toNat_mul, htotal, show (2 : UInt64).toNat = 2 from rfl, show (4 : UInt64).toNat = 4 from rfl]
  omega

/-- **The footprint is fixed at construction.** After any calls, answered or failed, the capacity is the one asked for
and not exceeded, every buffer has the length it was built with, and `cacheBytes` is the bytes of the two cache arrays,
without wrapping. -/
theorem footprint_constant {s : InferenceSession model} {P : List Int32} (h : Reachable Planned capacity s P) :
    s.capacityOf = capacity ∧ s.size.toNat = P.length ∧ P.length ≤ capacity.toNat ∧ s.Shape capacity ∧
      s.cacheBytes.toNat = 8 * (model.weights.config.numLayers.toNat * (capacity.toNat * model.weights.config.channels.toNat)) ∧
      s.cacheBytes.toNat = 4 * (s.cache.keys.length + s.cache.values.length) := by
  have hholds : s.Holds capacity P := h.holds fun executor hA => hA
  have hshape := hholds.shape
  have hkeys := hshape.cache.keys
  have hvalues := hshape.cache.values
  rw [hshape.numLayers, hshape.capacity_eq, hshape.channels] at hkeys hvalues
  have hbytes := h.cacheBytes
  refine ⟨hshape.capacity_eq, hholds.size, hholds.length_le, hshape, hbytes, ?_⟩
  rw [hbytes, hkeys, hvalues]
  ring

/-- After a decode that throws and a prompt of one token. -/
theorem footprint_constant_tiny : ∃ s : InferenceSession tinyModel, make tinyModel 2 = .ok s ∧
    ((s.step (.decode 0 none)).2.step (.prefill [1] none)).2.cacheBytes.toNat = 16 := by
  obtain ⟨s, hs⟩ := (make_ok_iff tinyModel 2).2 tinyModel_capacity
  have hnone : Faithful (none : Option (Executor Int)) := fun _ _ _ h => h
  have hplanned : Planned (none : Option (Executor Int)) := ⟨_, hnone.follows⟩
  have hdecode : (Call.decode 0 (none : Option (Executor Int))).Allows Planned := hplanned
  have hprefill : (Call.prefill [1] (none : Option (Executor Int))).Allows Planned := hplanned
  exact ⟨s, hs, (footprint_constant (((Reachable.make hs).step hdecode).step hprefill)).2.2.2.2.1⟩

end InferenceSession

end Gpt2Runtime
