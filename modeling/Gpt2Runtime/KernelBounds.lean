import Gpt2Runtime.KernelSpecs
/-
# What the entry checks of the kernels guarantee (`kernels.cpp`)

| here | there |
| --- | --- |
| `LayerNormChecks`, `LinearChecks`, `CausalChecks`, `CachedChecks` | the entry checks of the kernels of these names pass; the products are the wrapped ones the code compares with |
| `OnlyUndefined`        | nothing but an access outside its span can go wrong |

Each kernel has four lemmas: it throws when a check fails, after the checks only an access can go wrong,
if it returns then the products of the dimensions do not wrap (the entry just behind the span is one the
loops reach), and if they do not wrap it returns. Together they say exactly when the checks are enough.
-/

namespace Gpt2Runtime.Kernels

open Loop Flat Word

variable {α β : Type}

/-! ## Accesses -/

theorem lt_of_read_ok {span : List α} {index : UInt64} {x : α} (h : read span index = .ok x) :
    index.toNat < span.length := by
  unfold read at h
  by_contra hge
  rw [List.getElem?_eq_none (by omega)] at h
  exact absurd h (by simp)

theorem write_ok_iff {span out : List α} {index : UInt64} {value : α} :
    write span index value = .ok out ↔ index.toNat < span.length ∧ out = span.set index.toNat value := by
  unfold write
  by_cases hlt : index.toNat < span.length
  · simp [hlt, eq_comm]
  · simp [hlt]

def OnlyUndefined (x : Except Exc β) : Prop := ∀ e, x = .error e → e = .undefined

namespace OnlyUndefined

theorem ok (b : β) : OnlyUndefined (.ok b) := by
  intro e h
  cases h

theorem bind {γ : Type} {x : Except Exc γ} {f : γ → Except Exc β} (hx : OnlyUndefined x) (hf : ∀ c, OnlyUndefined (f c)) :
    OnlyUndefined (x >>= f) := by
  intro e h
  rcases bind_eq_error.1 h with h | ⟨c, _, h⟩
  · exact hx e h
  · exact hf c e h

theorem read (span : List α) (index : UInt64) : OnlyUndefined (read span index) := by
  intro e h
  unfold Gpt2Runtime.read at h
  cases hget : span[index.toNat]? with
  | some x => simp [hget] at h
  | none => simpa [hget] using h.symm

theorem write (span : List α) (index : UInt64) (value : α) : OnlyUndefined (write span index value) := by
  intro e h
  unfold Gpt2Runtime.write at h
  by_cases hlt : index.toNat < span.length
  · simp [hlt] at h
  · simpa [hlt] using h.symm

theorem forSize {n : Nat} {s : β} {body : UInt64 → β → Except Exc β} (h : ∀ i s, OnlyUndefined (body i s)) :
    OnlyUndefined (forSize n s body) := by
  intro e herr
  obtain ⟨i, s', _, herr⟩ := forN_error_of herr
  exact h _ _ e herr

end OnlyUndefined

/-- A computation that returns a list of `n` entries, if it returns. -/
def HasLength (n : Nat) (x : Except Exc (List α)) : Prop := ∀ out, x = .ok out → out.length = n

theorem HasLength.bind {γ : Type} {n : Nat} {x : Except Exc γ} {f : γ → Except Exc (List α)} (hf : ∀ c, HasLength n (f c)) :
    HasLength n (x >>= f) := by
  intro out h
  obtain ⟨c, _, hc⟩ := bind_eq_ok.1 h
  exact hf c out hc

theorem HasLength.write {n : Nat} {span : List α} (hspan : span.length = n) (index : UInt64) (value : α) :
    HasLength n (write span index value) := by
  intro out h
  obtain ⟨_, rfl⟩ := write_ok_iff.1 h
  rw [List.length_set, hspan]

theorem HasLength.forSize {n k : Nat} {span : List α} {body : UInt64 → List α → Except Exc (List α)}
    (hspan : span.length = n) (h : ∀ i s, s.length = n → HasLength n (body i s)) : HasLength n (forSize k span body) := by
  intro out hok
  exact (forN_ran (I := fun s : List α => s.length = n) hok hspan fun i s s' _ hs hbody => h _ s hs s' hbody).1

/-- The four lemmas of a kernel together. -/
theorem ne_undefined_iff {x : Except Exc β} {Checks Fits : Prop} (hrejects : ¬Checks → ∃ text, x = .error (.invalidArgument text))
    (honly : Checks → OnlyUndefined x) (hfits : Checks → (∃ b, x = .ok b) → Fits)
    (hreturns : Checks → Fits → ∃ b, x = .ok b) : x ≠ .error .undefined ↔ (Checks → Fits) := by
  constructor
  · intro hne hc
    cases hx : x with
    | ok b => exact hfits hc ⟨b, hx⟩
    | error e =>
      obtain rfl := honly hc e hx
      exact absurd hx hne
  · intro h hundef
    by_cases hc : Checks
    · obtain ⟨b, hb⟩ := hreturns hc (h hc)
      rw [hundef] at hb
      exact absurd hb (by simp)
    · obtain ⟨text, htext⟩ := hrejects hc
      rw [hundef] at htext
      exact absurd htext (by simp)

theorem requireSize_error {values : List α} {expected : UInt64} {name : String} (h : values.length ≠ expected.toNat) :
    requireSize values expected name = .error (.invalidArgument (name ++ " has the wrong size")) := throwIf_of h

/-- A size check throws `invalid_argument` or passes. -/
theorem requireSize_bind_rejects {values : List α} {expected : UInt64} {name : String} {f : Unit → Except Exc β}
    {R : Prop} (hrest : ¬R → ∃ text, f () = .error (.invalidArgument text))
    (h : ¬(values.length = expected.toNat ∧ R)) :
    ∃ text, (requireSize values expected name >>= f) = .error (.invalidArgument text) := by
  by_cases hsize : values.length = expected.toNat
  · rw [requireSize_ok hsize, ok_bind]
    exact hrest fun hr => h ⟨hsize, hr⟩
  · rw [requireSize_error hsize, error_bind]
    exact ⟨_, rfl⟩

/-- Entry `n` of a matrix is reached by the loops over its rows and columns, and its index does not wrap. -/
theorem exists_index {R n : Nat} {b : UInt64} (hR : R ≤ 2 ^ 64) (hn : n < 2 ^ 64) (h : n < R * b.toNat) :
    ∃ r c, r < R ∧ c < b.toNat ∧ (UInt64.ofNat r * b + UInt64.ofNat c).toNat = n := by
  obtain ⟨hr, hc, heq⟩ := idx_split h
  refine ⟨n / b.toNat, n % b.toNat, hr, hc, ?_⟩
  rw [toNat_idx (by omega) (by rw [heq]; exact hn), heq]

/-- The entry just behind a span of the wrapped size is one the loops reach. -/
theorem exists_behind {a b : UInt64} (h : 2 ^ 64 ≤ a.toNat * b.toNat) :
    ∃ r c, r < a.toNat ∧ c < b.toNat ∧ (UInt64.ofNat r * b + UInt64.ofNat c).toNat = (a * b).toNat := by
  have hlt := toNat_lt (a * b)
  exact exists_index (Nat.le_of_lt (toNat_lt a)) hlt (by omega)

variable [Scalar α]

/-! ## `layer_norm` -/

structure LayerNormChecks (output input weight bias : List α) (rows channels : UInt64) : Prop where
  output : output.length = (rows * channels).toNat
  input : input.length = (rows * channels).toNat
  weight : weight.length = channels.toNat
  bias : bias.length = channels.toNat
  positive : channels ≠ 0

section
variable {output input weight bias : List α} {rows channels : UInt64}

theorem layerNorm_rejects (h : ¬LayerNormChecks output input weight bias rows channels) :
    ∃ text, layerNorm output input weight bias rows channels = .error (.invalidArgument text) := by
  unfold layerNorm
  refine requireSize_bind_rejects (requireSize_bind_rejects (requireSize_bind_rejects
    (requireSize_bind_rejects (R := channels ≠ 0) ?_))) ?_
  · intro h0
    rw [throwIf_of (not_not.1 h0), error_bind]
    exact ⟨_, rfl⟩
  · rintro ⟨ho, hi, hw, hb, h0⟩
    exact h ⟨ho, hi, hw, hb, h0⟩

theorem layerNorm_only (h : LayerNormChecks output input weight bias rows channels) :
    OnlyUndefined (layerNorm output input weight bias rows channels) := by
  simp only [layerNorm, requireSize_ok h.output, requireSize_ok h.input, requireSize_ok h.weight, requireSize_ok h.bias,
    throwIf_of_not h.positive, ok_bind]
  refine .forSize fun row out => ?_
  refine .bind (.forSize fun channel mean => .bind (.read _ _) fun x => .ok _) fun mean => ?_
  refine .bind (.forSize fun channel variance => .bind (.read _ _) fun x => .ok _) fun variance => ?_
  refine .forSize fun channel out => ?_
  exact .bind (.read _ _) fun x => .bind (.read _ _) fun w => .bind (.read _ _) fun b => .write _ _ _

/-- A run that returns read every entry of the input. -/
theorem layerNorm_ran (h : LayerNormChecks output input weight bias rows channels) {out : List α}
    (hok : layerNorm output input weight bias rows channels = .ok out) {r c : Nat} (hr : r < rows.toNat)
    (hc : c < channels.toNat) : (UInt64.ofNat r * channels + UInt64.ofNat c).toNat < input.length := by
  simp only [layerNorm, requireSize_ok h.output, requireSize_ok h.input, requireSize_ok h.weight, requireSize_ok h.bias,
    throwIf_of_not h.positive, ok_bind] at hok
  obtain ⟨-, hrows⟩ := forN_ran (I := fun _ => True) hok trivial fun _ _ _ _ _ _ => trivial
  obtain ⟨s, s', -, hrow⟩ := hrows r hr
  obtain ⟨total, htotal, -⟩ := bind_eq_ok.1 hrow
  obtain ⟨-, hchannels⟩ := forN_ran (I := fun _ => True) htotal trivial fun _ _ _ _ _ _ => trivial
  obtain ⟨m, m', -, hchannel⟩ := hchannels c hc
  obtain ⟨x, hx, -⟩ := bind_eq_ok.1 hchannel
  exact lt_of_read_ok hx

theorem layerNorm_fits (h : LayerNormChecks output input weight bias rows channels)
    (hok : ∃ out, layerNorm output input weight bias rows channels = .ok out) : rows.toNat * channels.toNat < 2 ^ 64 := by
  obtain ⟨out, hok⟩ := hok
  by_contra hge
  obtain ⟨r, c, hr, hc, hidx⟩ := exists_behind (Nat.le_of_not_lt hge)
  have hlt := layerNorm_ran h hok hr hc
  rw [hidx, h.input] at hlt
  exact Nat.lt_irrefl _ hlt

theorem layerNorm_returns (h : LayerNormChecks output input weight bias rows channels)
    (hfit : rows.toNat * channels.toNat < 2 ^ 64) : ∃ out, layerNorm output input weight bias rows channels = .ok out := by
  have hsize := toNat_mul_of_lt hfit
  have hinput := (IsVec.of_length (0 : α) (h.input.trans hsize)).toMat
  obtain ⟨out, hok, -⟩ := layerNorm_ok hfit (pos_of_ne_zero h.positive) (h.output.trans hsize) hinput
    (.of_length 0 h.weight) (.of_length 0 h.bias)
  exact ⟨out, hok⟩

end

/-! ## `linear` -/

structure LinearChecks (output input weight bias : List α) (rows inputChannels outputChannels : UInt64) : Prop where
  output : output.length = (rows * outputChannels).toNat
  input : input.length = (rows * inputChannels).toNat
  weight : weight.length = (outputChannels * inputChannels).toNat
  bias : bias = [] ∨ bias.length = outputChannels.toNat

/-- No row or no column, or products that fit. -/
def LinearFits (rows inputChannels outputChannels : UInt64) : Prop :=
  rows = 0 ∨ outputChannels = 0 ∨
    (rows.toNat * outputChannels.toNat < 2 ^ 64 ∧ rows.toNat * inputChannels.toNat < 2 ^ 64 ∧
      outputChannels.toNat * inputChannels.toNat < 2 ^ 64)

section
variable {output input weight bias : List α} {rows inputChannels outputChannels : UInt64}

omit [Scalar α] in
theorem LinearChecks.requireBias_ok (h : LinearChecks output input weight bias rows inputChannels outputChannels) :
    requireBias bias outputChannels = .ok () := by
  rcases h.bias with rfl | hb
  · rfl
  · unfold requireBias
    by_cases hempty : bias.isEmpty
    · rw [if_pos hempty]
    · rw [if_neg hempty, requireSize_ok hb]

theorem linear_rejects (h : ¬LinearChecks output input weight bias rows inputChannels outputChannels) :
    ∃ text, linear output input weight bias rows inputChannels outputChannels = .error (.invalidArgument text) := by
  unfold linear
  refine requireSize_bind_rejects (requireSize_bind_rejects (requireSize_bind_rejects
    (R := bias = [] ∨ bias.length = outputChannels.toNat) ?_)) ?_
  · intro hb
    obtain ⟨hne, hlen⟩ := not_or.1 hb
    have hempty : ¬bias.isEmpty = true := by simpa using hne
    rw [requireBias, if_neg hempty, requireSize_error hlen, error_bind]
    exact ⟨_, rfl⟩
  · rintro ⟨ho, hi, hw, hb⟩
    exact h ⟨ho, hi, hw, hb⟩

theorem biasOrZero_only (bias : List α) (outChannel : UInt64) : OnlyUndefined (biasOrZero bias outChannel) := by
  unfold biasOrZero
  by_cases hempty : bias.isEmpty
  · rw [if_pos hempty]
    exact .ok 0
  · rw [if_neg hempty]
    exact .read _ _

theorem linear_only (h : LinearChecks output input weight bias rows inputChannels outputChannels) :
    OnlyUndefined (linear output input weight bias rows inputChannels outputChannels) := by
  simp only [linear, requireSize_ok h.output, requireSize_ok h.input, requireSize_ok h.weight, h.requireBias_ok, ok_bind]
  refine .forSize fun row out => .forSize fun outChannel out => ?_
  refine .bind (biasOrZero_only _ _) fun value => .bind (.forSize fun inChannel value => ?_) fun value => .write _ _ _
  exact .bind (.read _ _) fun x => .bind (.read _ _) fun w => .ok _

theorem linear_length (h : LinearChecks output input weight bias rows inputChannels outputChannels) {out : List α}
    (hok : linear output input weight bias rows inputChannels outputChannels = .ok out) : out.length = output.length := by
  simp only [linear, requireSize_ok h.output, requireSize_ok h.input, requireSize_ok h.weight, h.requireBias_ok, ok_bind]
    at hok
  refine HasLength.forSize rfl (fun row s hs => ?_) out hok
  exact .forSize hs fun _ _ ht => .bind fun _ => .bind fun _ => .write ht _ _

/-- A run that returns read and wrote every entry inside its span. -/
theorem linear_ran (h : LinearChecks output input weight bias rows inputChannels outputChannels) {out : List α}
    (hok : linear output input weight bias rows inputChannels outputChannels = .ok out) {r o : Nat} (hr : r < rows.toNat)
    (ho : o < outputChannels.toNat) :
    (UInt64.ofNat r * outputChannels + UInt64.ofNat o).toNat < output.length ∧
      ∀ i, i < inputChannels.toNat → (UInt64.ofNat r * inputChannels + UInt64.ofNat i).toNat < input.length ∧
        (UInt64.ofNat o * inputChannels + UInt64.ofNat i).toNat < weight.length := by
  simp only [linear, requireSize_ok h.output, requireSize_ok h.input, requireSize_ok h.weight, h.requireBias_ok, ok_bind]
    at hok
  -- a write keeps the length, so does a row and so does the whole loop
  obtain ⟨-, hrows⟩ := forN_ran (I := fun s : List α => s.length = output.length) hok rfl fun _ _ s' _ hs hrow =>
    HasLength.forSize hs (fun _ _ ht => .bind fun _ => .bind fun _ => .write ht _ _) s' hrow
  obtain ⟨s, s', hs, hrow⟩ := hrows r hr
  obtain ⟨-, hchannels⟩ := forN_ran (I := fun s : List α => s.length = output.length) hrow hs fun _ _ t' _ ht hbody =>
    HasLength.bind (fun _ => .bind fun _ => .write ht _ _) t' hbody
  obtain ⟨t, t', ht, hbody⟩ := hchannels o ho
  obtain ⟨first, -, hbody⟩ := bind_eq_ok.1 hbody
  obtain ⟨value, hvalue, hwrite⟩ := bind_eq_ok.1 hbody
  obtain ⟨hlt, -⟩ := write_ok_iff.1 hwrite
  refine ⟨ht ▸ hlt, ?_⟩
  intro i hi
  obtain ⟨-, hterms⟩ := forN_ran (I := fun _ => True) hvalue trivial fun _ _ _ _ _ _ => trivial
  obtain ⟨v, v', -, hterm⟩ := hterms i hi
  obtain ⟨x, hx, hterm⟩ := bind_eq_ok.1 hterm
  obtain ⟨w, hw, -⟩ := bind_eq_ok.1 hterm
  exact ⟨lt_of_read_ok hx, lt_of_read_ok hw⟩

theorem linear_fits (h : LinearChecks output input weight bias rows inputChannels outputChannels)
    (hok : ∃ out, linear output input weight bias rows inputChannels outputChannels = .ok out) :
    LinearFits rows inputChannels outputChannels := by
  obtain ⟨out, hok⟩ := hok
  by_cases hR : rows = 0
  · exact .inl hR
  by_cases hO : outputChannels = 0
  · exact .inr (.inl hO)
  have hR := pos_of_ne_zero hR
  have hO := pos_of_ne_zero hO
  refine .inr (.inr ⟨?_, ?_, ?_⟩)
  · by_contra hge
    obtain ⟨r, o, hr, ho, hidx⟩ := exists_behind (Nat.le_of_not_lt hge)
    have hlt := (linear_ran h hok hr ho).1
    rw [hidx, h.output] at hlt
    exact Nat.lt_irrefl _ hlt
  · by_contra hge
    obtain ⟨r, i, hr, hi, hidx⟩ := exists_behind (Nat.le_of_not_lt hge)
    have hlt := ((linear_ran h hok hr hO).2 i hi).1
    rw [hidx, h.input] at hlt
    exact Nat.lt_irrefl _ hlt
  · by_contra hge
    obtain ⟨o, i, ho, hi, hidx⟩ := exists_behind (Nat.le_of_not_lt hge)
    have hlt := ((linear_ran h hok hR ho).2 i hi).2
    rw [hidx, h.weight] at hlt
    exact Nat.lt_irrefl _ hlt

/-- Any bias that passes its check contributes some entries. -/
theorem LinearChecks.exists_isBias (h : LinearChecks output input weight bias rows inputChannels outputChannels)
    (hO : 0 < outputChannels.toNat) : ∃ b, IsBias bias outputChannels.toNat b := by
  rcases h.bias with rfl | hb
  · exact ⟨_, .inl ⟨rfl, rfl⟩⟩
  · exact ⟨_, .of_vec hO (.of_length 0 hb)⟩

theorem linear_returns (h : LinearChecks output input weight bias rows inputChannels outputChannels)
    (hfit : LinearFits rows inputChannels outputChannels) :
    ∃ out, linear output input weight bias rows inputChannels outputChannels = .ok out := by
  by_cases hR : rows.toNat = 0
  · simp only [linear, requireSize_ok h.output, requireSize_ok h.input, requireSize_ok h.weight, h.requireBias_ok, ok_bind,
      hR]
    exact ⟨output, rfl⟩
  by_cases hO : outputChannels.toNat = 0
  · simp only [linear, requireSize_ok h.output, requireSize_ok h.input, requireSize_ok h.weight, h.requireBias_ok, ok_bind,
      hO]
    obtain ⟨out, hok, -⟩ := forN_spec (I := fun _ _ => True) trivial fun i s _ _ => ⟨s, rfl, trivial⟩
    exact ⟨out, hok⟩
  · obtain ⟨hout, hin, hwt⟩ : rows.toNat * outputChannels.toNat < 2 ^ 64 ∧ rows.toNat * inputChannels.toNat < 2 ^ 64 ∧
        outputChannels.toNat * inputChannels.toNat < 2 ^ 64 := by
      rcases hfit with hR' | hO' | hfit
      · exact absurd (eq_zero_iff.1 hR') hR
      · exact absurd (eq_zero_iff.1 hO') hO
      · exact hfit
    obtain ⟨b, hb⟩ := h.exists_isBias (Nat.pos_of_ne_zero hO)
    have hinput := (IsVec.of_length (0 : α) (h.input.trans (toNat_mul_of_lt hin))).toMat
    have hweight := (IsVec.of_length (0 : α) (h.weight.trans (toNat_mul_of_lt hwt))).toMat
    obtain ⟨out, hok, -⟩ :=
      linear_ok inputChannels outputChannels hout hin hwt (h.output.trans (toNat_mul_of_lt hout)) hinput hweight hb
    exact ⟨out, hok⟩

end

/-! ## Attention -/

/-- The dimension check of both attention kernels. -/
def DimensionsOk (channels numHeads : UInt64) : Prop := ¬(numHeads = 0 ∨ channels = 0 ∨ channels % numHeads ≠ 0)

theorem DimensionsOk.positive {channels numHeads : UInt64} (h : DimensionsOk channels numHeads) : 0 < channels.toNat := by
  refine pos_of_ne_zero fun h0 => h (.inr (.inl h0))

theorem DimensionsOk.dvd {channels numHeads : UInt64} (h : DimensionsOk channels numHeads) :
    numHeads.toNat ∣ channels.toNat := by
  refine Nat.dvd_of_mod_eq_zero ?_
  rw [← UInt64.toNat_mod, ← eq_zero_iff]
  exact not_not.1 fun hne => h (.inr (.inr hne))

section
variable {output query keys values scoreScratch : List α} {queryBase outputBase : UInt64} {keyBase valueBase : UInt64 → UInt64}
  {visible : Nat} {headSize : UInt64} {scale : α}

theorem attendHead_only : OnlyUndefined
    (attendHead output query keys values scoreScratch queryBase outputBase keyBase valueBase visible headSize scale) := by
  unfold attendHead attendScores attendExponentials attendValues
  refine .bind (.forSize fun source scores => ?_) fun scores => .bind (.forSize fun source exponentials => ?_) fun sum =>
    .bind (.forSize fun source out => ?_) fun out => .ok _
  · refine .bind (.forSize fun index score => ?_) fun total => .bind (.write _ _ _) fun scratch => .ok _
    exact .bind (.read _ _) fun q => .bind (.read _ _) fun k => .ok _
  · exact .bind (.read _ _) fun score => .bind (.write _ _ _) fun scratch => .ok _
  · refine .bind (.read _ _) fun value => .forSize fun index out => ?_
    exact .bind (.read _ _) fun o => .bind (.read _ _) fun v => .write _ _ _

/-- A head that returned read its query and, for each visible source, the key and the value. -/
theorem attendHead_ran {result : List α × List α}
    (hok : attendHead output query keys values scoreScratch queryBase outputBase keyBase valueBase visible headSize scale =
      .ok result) {s i : Nat} (hs : s < visible) (hi : i < headSize.toNat) :
    (queryBase + UInt64.ofNat i).toNat < query.length ∧ (keyBase (UInt64.ofNat s) + UInt64.ofNat i).toNat < keys.length ∧
      (valueBase (UInt64.ofNat s) + UInt64.ofNat i).toNat < values.length := by
  unfold attendHead at hok
  obtain ⟨⟨scratch, maximum⟩, hscores, hok⟩ := bind_eq_ok.1 hok
  obtain ⟨⟨scratch', sum⟩, -, hok⟩ := bind_eq_ok.1 hok
  obtain ⟨out, hvalues, -⟩ := bind_eq_ok.1 hok
  obtain ⟨-, hsources⟩ := forN_ran (I := fun _ => True) hscores trivial fun _ _ _ _ _ _ => trivial
  obtain ⟨⟨scr, m⟩, _, -, hsource⟩ := hsources s hs
  obtain ⟨total, htotal, -⟩ := bind_eq_ok.1 hsource
  obtain ⟨-, hterms⟩ := forN_ran (I := fun _ => True) htotal trivial fun _ _ _ _ _ _ => trivial
  obtain ⟨_, _, -, hterm⟩ := hterms i hi
  obtain ⟨q, hq, hterm⟩ := bind_eq_ok.1 hterm
  obtain ⟨k, hk, -⟩ := bind_eq_ok.1 hterm
  obtain ⟨-, hsources⟩ := forN_ran (I := fun _ => True) hvalues trivial fun _ _ _ _ _ _ => trivial
  obtain ⟨_, _, -, hsource⟩ := hsources s hs
  obtain ⟨p, -, hentries⟩ := bind_eq_ok.1 hsource
  obtain ⟨-, hentries⟩ := forN_ran (I := fun _ => True) hentries trivial fun _ _ _ _ _ _ => trivial
  obtain ⟨_, _, -, hentry⟩ := hentries i hi
  obtain ⟨o, -, hentry⟩ := bind_eq_ok.1 hentry
  obtain ⟨v, hv, -⟩ := bind_eq_ok.1 hentry
  exact ⟨lt_of_read_ok hq, lt_of_read_ok hk, lt_of_read_ok hv⟩

end

/-! ## `causal_self_attention` -/

structure CausalChecks (output qkv scoreScratch : List α) (sequenceLength channels numHeads : UInt64) : Prop where
  output : output.length = (sequenceLength * channels).toNat
  qkv : qkv.length = (sequenceLength * 3 * channels).toNat
  scratch : scoreScratch.length = sequenceLength.toNat
  dims : DimensionsOk channels numHeads

section
variable {output qkv scoreScratch : List α} {sequenceLength channels numHeads : UInt64}

theorem causalSelfAttention_rejects (h : ¬CausalChecks output qkv scoreScratch sequenceLength channels numHeads) :
    ∃ text, causalSelfAttention output qkv scoreScratch sequenceLength channels numHeads =
      .error (.invalidArgument text) := by
  unfold causalSelfAttention
  refine requireSize_bind_rejects (requireSize_bind_rejects (requireSize_bind_rejects
    (R := DimensionsOk channels numHeads) ?_)) ?_
  · intro hdims
    rw [throwIf_of (not_not.1 hdims), error_bind]
    exact ⟨_, rfl⟩
  · rintro ⟨ho, hq, hs, hd⟩
    exact h ⟨ho, hq, hs, hd⟩

theorem causalSelfAttention_only (h : CausalChecks output qkv scoreScratch sequenceLength channels numHeads) :
    OnlyUndefined (causalSelfAttention output qkv scoreScratch sequenceLength channels numHeads) := by
  simp only [causalSelfAttention, requireSize_ok h.output, requireSize_ok h.qkv, requireSize_ok h.scratch,
    throwIf_of_not h.dims, ok_bind]
  exact .forSize fun position _ => .forSize fun head _ => attendHead_only

/-- A run that returns read the query, key and value entries of every head and every pair of positions. -/
theorem causalSelfAttention_ran (h : CausalChecks output qkv scoreScratch sequenceLength channels numHeads)
    {result : List α × List α}
    (hok : causalSelfAttention output qkv scoreScratch sequenceLength channels numHeads = .ok result) {p head i : Nat}
    (hp : p < sequenceLength.toNat) (hh : head < numHeads.toNat) (hi : i < (channels / numHeads).toNat) :
    (UInt64.ofNat p * 3 * channels + UInt64.ofNat head * (channels / numHeads) + UInt64.ofNat i).toNat < qkv.length ∧
      (UInt64.ofNat p * 3 * channels + channels + UInt64.ofNat head * (channels / numHeads) + UInt64.ofNat i).toNat <
        qkv.length ∧
      (UInt64.ofNat p * 3 * channels + 2 * channels + UInt64.ofNat head * (channels / numHeads) + UInt64.ofNat i).toNat <
        qkv.length := by
  simp only [causalSelfAttention, requireSize_ok h.output, requireSize_ok h.qkv, requireSize_ok h.scratch,
    throwIf_of_not h.dims, ok_bind] at hok
  have hp64 := toNat_lt sequenceLength
  obtain ⟨-, hpositions⟩ := forN_ran (I := fun _ => True) hok trivial fun _ _ _ _ _ _ => trivial
  obtain ⟨_, _, -, hheads⟩ := hpositions p hp
  obtain ⟨-, hheads⟩ := forN_ran (I := fun _ => True) hheads trivial fun _ _ _ _ _ _ => trivial
  obtain ⟨_, _, -, hhead⟩ := hheads head hh
  refine attendHead_ran hhead ?_ hi
  rw [toNat_ofNat_of_lt (by omega)]
  exact Nat.lt_succ_self p

/-- The row of an entry of `qkv` and its place in the row do not wrap. -/
theorem toNat_qkvRow {s n : Nat} (hC : 0 < channels.toNat) (hn : n < 2 ^ 64) (hs : s * (3 * channels.toNat) ≤ n) :
    (UInt64.ofNat s * 3 * channels).toNat = s * (3 * channels.toNat) := by
  have h3 : s * 3 ≤ s * (3 * channels.toNat) := Nat.mul_le_mul_left s (by omega)
  have hs3 : (UInt64.ofNat s * 3).toNat = s * 3 := toNat_mul_eq (toNat_ofNat_of_lt (by omega)) rfl (by omega)
  rw [← Nat.mul_assoc] at hs ⊢
  exact toNat_mul_eq hs3 rfl (by omega)

theorem causalSelfAttention_fits (h : CausalChecks output qkv scoreScratch sequenceLength channels numHeads)
    (hok : ∃ result, causalSelfAttention output qkv scoreScratch sequenceLength channels numHeads = .ok result) :
    sequenceLength.toNat * (3 * channels.toNat) < 2 ^ 64 := by
  obtain ⟨result, hok⟩ := hok
  by_contra hge
  have hC := h.dims.positive
  have hC64 := toNat_lt channels
  obtain ⟨-, hHC, -⟩ := attention_dims hC h.dims.dvd
  have hran := @causalSelfAttention_ran _ _ _ _ _ _ _ _ h _ hok
  have hn : qkv.length < 2 ^ 64 := by
    rw [h.qkv]
    exact toNat_lt _
  -- the entry behind the span, by row, block, head and index
  obtain ⟨hs, hcol, hsplit⟩ := idx_split (show qkv.length < sequenceLength.toNat * (3 * channels.toNat) by omega)
  generalize qkv.length / (3 * channels.toNat) = s at *
  generalize qkv.length % (3 * channels.toNat) = col at *
  have hrow := toNat_qkvRow hC hn (show s * (3 * channels.toNat) ≤ qkv.length by omega)
  have hentry : ∀ c, c < channels.toNat → ∃ head i, head < numHeads.toNat ∧ i < (channels / numHeads).toNat ∧
      (UInt64.ofNat head * (channels / numHeads)).toNat = head * (channels / numHeads).toNat ∧
      (UInt64.ofNat i).toNat = i ∧ head * (channels / numHeads).toNat + i = c := by
    intro c hc
    obtain ⟨hhead, hi, heq⟩ := idx_split (show c < numHeads.toNat * (channels / numHeads).toNat by rw [hHC]; exact hc)
    have hH64 := toNat_lt numHeads
    refine ⟨_, _, hhead, hi, toNat_mul_eq (toNat_ofNat_of_lt (by omega)) rfl (by omega), toNat_ofNat_of_lt (by omega), heq⟩
  by_cases hquery : col < channels.toNat
  · obtain ⟨head, i, hhead, hi, e1, e2, heq⟩ := hentry col hquery
    have hlt := (hran hs hhead hi).1
    rw [toNat_add_eq (toNat_add_eq hrow e1 (by omega)) e2 (by omega)] at hlt
    omega
  by_cases hkey : col < 2 * channels.toNat
  · obtain ⟨head, i, hhead, hi, e1, e2, heq⟩ := hentry (col - channels.toNat) (by omega)
    have hlt := (hran hs hhead hi).2.1
    rw [toNat_add_eq (toNat_add_eq (toNat_add_eq hrow rfl (by omega)) e1 (by omega)) e2 (by omega)] at hlt
    omega
  · obtain ⟨head, i, hhead, hi, e1, e2, heq⟩ := hentry (col - 2 * channels.toNat) (by omega)
    have h2 : (2 * channels).toNat = 2 * channels.toNat := toNat_mul_eq rfl rfl (by omega)
    have hlt := (hran hs hhead hi).2.2
    rw [toNat_add_eq (toNat_add_eq (toNat_add_eq hrow h2 (by omega)) e1 (by omega)) e2 (by omega)] at hlt
    omega

omit [Scalar α] in
/-- The sizes of a call that passed the checks and does not wrap. -/
theorem CausalChecks.sizes (h : CausalChecks output qkv scoreScratch sequenceLength channels numHeads)
    (hfit : sequenceLength.toNat * (3 * channels.toNat) < 2 ^ 64) :
    output.length = sequenceLength.toNat * channels.toNat ∧
      qkv.length = sequenceLength.toNat * (3 * channels.toNat) := by
  have hC := h.dims.positive
  have hle : sequenceLength.toNat * channels.toNat ≤ sequenceLength.toNat * (3 * channels.toNat) :=
    Nat.mul_le_mul_left _ (by omega)
  have h3 : sequenceLength.toNat * 3 ≤ sequenceLength.toNat * (3 * channels.toNat) := Nat.mul_le_mul_left _ (by omega)
  have hrows : (sequenceLength * 3).toNat = sequenceLength.toNat * 3 := toNat_mul_eq rfl rfl (by omega)
  refine ⟨h.output.trans (toNat_mul_of_lt (by omega)), h.qkv.trans ?_⟩
  rw [← Nat.mul_assoc] at hfit ⊢
  exact toNat_mul_eq hrows rfl hfit

theorem causalSelfAttention_returns (h : CausalChecks output qkv scoreScratch sequenceLength channels numHeads)
    (hfit : sequenceLength.toNat * (3 * channels.toNat) < 2 ^ 64) :
    ∃ result, causalSelfAttention output qkv scoreScratch sequenceLength channels numHeads = .ok result := by
  obtain ⟨houtput, hqkv⟩ := h.sizes hfit
  obtain ⟨out, scratch, hok, -⟩ := causalSelfAttention_ok hfit h.dims.positive h.dims.dvd houtput
    (IsVec.of_length (0 : α) hqkv).toMat h.scratch
  exact ⟨_, hok⟩

end

/-! ## `cached_self_attention` -/

structure CachedChecks (output query keyCache valueCache scoreScratch : List α)
    (visibleLength capacity channels numHeads : UInt64) : Prop where
  output : output.length = channels.toNat
  query : query.length = channels.toNat
  keys : keyCache.length = (capacity * channels).toNat
  values : valueCache.length = (capacity * channels).toNat
  scratch : scoreScratch.length = capacity.toNat
  visible : ¬(visibleLength = 0 ∨ capacity < visibleLength)
  dims : DimensionsOk channels numHeads

section
variable {output query keyCache valueCache scoreScratch : List α} {visibleLength capacity channels numHeads : UInt64}

theorem cachedSelfAttention_rejects
    (h : ¬CachedChecks output query keyCache valueCache scoreScratch visibleLength capacity channels numHeads) :
    ∃ text, cachedSelfAttention output query keyCache valueCache scoreScratch visibleLength capacity channels numHeads =
      .error (.invalidArgument text) := by
  unfold cachedSelfAttention
  refine requireSize_bind_rejects (requireSize_bind_rejects (requireSize_bind_rejects (requireSize_bind_rejects
    (requireSize_bind_rejects
      (R := ¬(visibleLength = 0 ∨ capacity < visibleLength) ∧ DimensionsOk channels numHeads) ?_)))) ?_
  · intro hrest
    by_cases hvis : visibleLength = 0 ∨ capacity < visibleLength
    · rw [throwIf_of hvis, error_bind]
      exact ⟨_, rfl⟩
    · have hdims : ¬DimensionsOk channels numHeads := fun hd => hrest ⟨hvis, hd⟩
      rw [throwIf_of_not hvis, ok_bind, throwIf_of (not_not.1 hdims), error_bind]
      exact ⟨_, rfl⟩
  · rintro ⟨ho, hq, hk, hv, hs, hvis, hd⟩
    exact h ⟨ho, hq, hk, hv, hs, hvis, hd⟩

theorem cachedSelfAttention_only
    (h : CachedChecks output query keyCache valueCache scoreScratch visibleLength capacity channels numHeads) :
    OnlyUndefined
      (cachedSelfAttention output query keyCache valueCache scoreScratch visibleLength capacity channels numHeads) := by
  simp only [cachedSelfAttention, requireSize_ok h.output, requireSize_ok h.query, requireSize_ok h.keys,
    requireSize_ok h.values, requireSize_ok h.scratch, throwIf_of_not h.visible, throwIf_of_not h.dims, ok_bind]
  exact .forSize fun head _ => attendHead_only

theorem cachedSelfAttention_fits
    (h : CachedChecks output query keyCache valueCache scoreScratch visibleLength capacity channels numHeads)
    (hok : ∃ result, cachedSelfAttention output query keyCache valueCache scoreScratch visibleLength capacity channels
      numHeads = .ok result) :
    visibleLength.toNat * channels.toNat ≤ (capacity * channels).toNat := by
  obtain ⟨result, hok⟩ := hok
  by_contra hgt
  obtain ⟨-, hHC, -⟩ := attention_dims h.dims.positive h.dims.dvd
  have hn := toNat_lt (capacity * channels)
  have hV64 := toNat_lt visibleLength
  have hH64 := toNat_lt numHeads
  simp only [cachedSelfAttention, requireSize_ok h.output, requireSize_ok h.query, requireSize_ok h.keys,
    requireSize_ok h.values, requireSize_ok h.scratch, throwIf_of_not h.visible, throwIf_of_not h.dims, ok_bind] at hok
  obtain ⟨-, hheads⟩ := forN_ran (I := fun _ => True) hok trivial fun _ _ _ _ _ _ => trivial
  -- the entry behind the cache, by row, head and index
  obtain ⟨hs, hc, hsplit⟩ := idx_split (Nat.lt_of_not_le hgt)
  generalize (capacity * channels).toNat / channels.toNat = s at *
  generalize (capacity * channels).toNat % channels.toNat = c at *
  rw [← hHC] at hc
  obtain ⟨hhead, hi, heq⟩ := idx_split hc
  generalize c / (channels / numHeads).toNat = head at *
  generalize c % (channels / numHeads).toNat = i at *
  obtain ⟨_, _, -, hrun⟩ := hheads head hhead
  have hlt := (attendHead_ran hrun hs hi).2.1
  have e0 : (UInt64.ofNat s * channels).toNat = s * channels.toNat :=
    toNat_mul_eq (toNat_ofNat_of_lt (by omega)) rfl (by omega)
  have e1 : (UInt64.ofNat head * (channels / numHeads)).toNat = head * (channels / numHeads).toNat :=
    toNat_mul_eq (toNat_ofNat_of_lt (by omega)) rfl (by omega)
  rw [toNat_add_eq (toNat_add_eq e0 e1 (by omega)) (toNat_ofNat_of_lt (by omega)) (by omega), h.keys] at hlt
  omega

theorem cachedSelfAttention_returns
    (h : CachedChecks output query keyCache valueCache scoreScratch visibleLength capacity channels numHeads)
    (hfit : visibleLength.toNat * channels.toNat ≤ (capacity * channels).toNat) :
    ∃ result, cachedSelfAttention output query keyCache valueCache scoreScratch visibleLength capacity channels numHeads =
      .ok result := by
  obtain ⟨hpos, hcap⟩ := not_or.1 h.visible
  rw [lt_iff, not_lt] at hcap
  have hrow : ∀ {cache : List α}, cache.length = (capacity * channels).toNat → ∀ s, s < visibleLength.toNat → ∀ c,
      c < channels.toNat → cache[s * channels.toNat + c]? = some (cache.getD (s * channels.toNat + c) 0) := by
    intro cache hl s hs c hc
    have := idx_lt hs hc
    exact (IsVec.of_length (0 : α) hl).2 _ (by omega)
  obtain ⟨out, scratch, hok, -⟩ := cachedSelfAttention_visible h.dims.positive h.dims.dvd (pos_of_ne_zero hpos) hcap h.output
    (.of_length (0 : α) h.query) h.keys h.values (hrow h.keys) (hrow h.values) h.scratch
  exact ⟨_, hok⟩

end

/-! ## `add_in_place` -/

/-- The one size it compares is not a product. -/
theorem addInPlace_ne_undefined {destination source : List α} (h : destination.length < 2 ^ 64) :
    addInPlace destination source ≠ .error .undefined := by
  by_cases hsize : source.length = (UInt64.ofNat destination.length).toNat
  · rw [toNat_ofNat_of_lt h] at hsize
    obtain ⟨out, hok, -⟩ := addInPlace_ok (by rwa [Nat.one_mul]) (IsVec.of_length (0 : α) rfl).row
      (IsVec.of_length (0 : α) hsize).row
    rw [hok]
    simp
  · rw [addInPlace, requireSize_error hsize, error_bind]
    simp

/-! ## All five -/

/-- `linear` on empty spans and three dimensions of `2 ^ 32`: all four checks pass, for each product
wraps to 0, and the first iteration reads `input[0]`. -/
theorem linear_reads_past_end :
    LinearChecks ([] : List Int) [] [] [] 4294967296 4294967296 4294967296 ∧
      linear ([] : List Int) [] [] [] 4294967296 4294967296 4294967296 = .error .undefined := by
  have hchecks : LinearChecks ([] : List Int) [] [] [] 4294967296 4294967296 4294967296 :=
    ⟨by decide, by decide, by decide, .inl rfl⟩
  refine ⟨hchecks, ?_⟩
  simp only [linear, requireSize_ok hchecks.output, hchecks.requireBias_ok, ok_bind]
  refine forN_error (forN_error ?_ (by decide)) (by decide)
  refine bind_eq_error.2 (.inr ⟨0, rfl, bind_eq_error.2 (.inl (forN_error rfl (by decide)))⟩)

/-- **When the entry checks are enough**: a kernel never leaves its spans, whatever it is called with, exactly
when passing the checks means that no product of its dimensions wraps. -/
theorem kernels_in_bounds_iff :
    (∀ (output input weight bias : List α) (rows channels : UInt64),
      layerNorm output input weight bias rows channels ≠ .error .undefined ↔
        (LayerNormChecks output input weight bias rows channels → rows.toNat * channels.toNat < 2 ^ 64)) ∧
    (∀ (output input weight bias : List α) (rows inputChannels outputChannels : UInt64),
      linear output input weight bias rows inputChannels outputChannels ≠ .error .undefined ↔
        (LinearChecks output input weight bias rows inputChannels outputChannels →
          LinearFits rows inputChannels outputChannels)) ∧
    (∀ (output qkv scoreScratch : List α) (sequenceLength channels numHeads : UInt64),
      causalSelfAttention output qkv scoreScratch sequenceLength channels numHeads ≠ .error .undefined ↔
        (CausalChecks output qkv scoreScratch sequenceLength channels numHeads →
          sequenceLength.toNat * (3 * channels.toNat) < 2 ^ 64)) ∧
    (∀ (output query keyCache valueCache scoreScratch : List α) (visibleLength capacity channels numHeads : UInt64),
      cachedSelfAttention output query keyCache valueCache scoreScratch visibleLength capacity channels numHeads ≠
          .error .undefined ↔
        (CachedChecks output query keyCache valueCache scoreScratch visibleLength capacity channels numHeads →
          visibleLength.toNat * channels.toNat ≤ (capacity * channels).toNat)) ∧
    ∀ destination source : List α, destination.length < 2 ^ 64 → addInPlace destination source ≠ .error .undefined := by
  refine ⟨?_, ?_, ?_, ?_, fun destination source h => addInPlace_ne_undefined h⟩
  · intro output input weight bias rows channels
    exact ne_undefined_iff layerNorm_rejects layerNorm_only layerNorm_fits layerNorm_returns
  · intro output input weight bias rows inputChannels outputChannels
    exact ne_undefined_iff linear_rejects linear_only linear_fits linear_returns
  · intro output qkv scoreScratch sequenceLength channels numHeads
    exact ne_undefined_iff causalSelfAttention_rejects causalSelfAttention_only causalSelfAttention_fits
      causalSelfAttention_returns
  · intro output query keyCache valueCache scoreScratch visibleLength capacity channels numHeads
    exact ne_undefined_iff cachedSelfAttention_rejects cachedSelfAttention_only cachedSelfAttention_fits
      cachedSelfAttention_returns

end Gpt2Runtime.Kernels
