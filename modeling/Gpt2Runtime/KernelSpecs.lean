import Gpt2Runtime.Gpt2
/-
# Each kernel computes its index-level row function

Every spec has the same shape: sizes that fit in a `size_t`, buffers of the right length holding
given index functions, and then the kernel returns a buffer holding the row function of
`Gpt2.lean`, whatever the output (and scratch) held before.
-/

namespace Gpt2Runtime.Kernels

open Loop Flat Word

/-! ## Indices that do not wrap -/

theorem toNat_idx {r c : Nat} {channels : UInt64} (hr : r < 2 ^ 64) (h : r * channels.toNat + c < 2 ^ 64) :
    (UInt64.ofNat r * channels + UInt64.ofNat c).toNat = r * channels.toNat + c := by
  have hr' := toNat_ofNat_of_lt hr
  have hc' := toNat_ofNat_of_lt (n := c) (by omega)
  have hmul : (UInt64.ofNat r * channels).toNat = r * channels.toNat := by
    rw [toNat_mul_of_lt (by rw [hr']; omega), hr']
  rw [toNat_add_of_lt (by rw [hmul, hc']; exact h), hmul, hc']

variable {α : Type}

theorem requireSize_ok {values : List α} {expected : UInt64} {name : String}
    (h : values.length = expected.toNat) : requireSize values expected name = .ok () :=
  throwIf_of_not (not_not.2 h)

variable [Scalar α]

/-- A loop that accumulates `f i` is the ascending sum. -/
theorem sum_loop {n : Nat} {init : α} {f : Nat → α} {body : UInt64 → α → Except Exc α}
    (h : ∀ i acc, i < n → body (UInt64.ofNat i) acc = .ok (acc + f i)) :
    forSize n init body = .ok (sumFrom init n f) :=
  forN_eq_fold init fun i acc hi => h i acc hi

/-! ## `layer_norm` -/

theorem layerNorm_ok {rows channels : UInt64} {output input weight bias : List α} {x : Nat → Nat → α}
    {w b : Nat → α} (hfit : rows.toNat * channels.toNat < 2 ^ 64) (hC : 0 < channels.toNat)
    (ho : output.length = rows.toNat * channels.toNat) (hx : IsMat input rows.toNat channels.toNat x)
    (hw : IsVec weight channels.toNat w) (hb : IsVec bias channels.toNat b) :
    ∃ out, layerNorm output input weight bias rows channels = .ok out ∧
      IsMat out rows.toNat channels.toNat (fun r => layerNormRow channels.toNat (x r) w b) := by
  have hprod := toNat_mul_of_lt hfit
  have hne : ¬channels = 0 := by rw [eq_zero_iff]; omega
  have hR := toNat_lt rows
  have hidx : ∀ r c, r < rows.toNat → c < channels.toNat →
      (UInt64.ofNat r * channels + UInt64.ofNat c).toNat = r * channels.toNat + c := fun r c hr hc =>
    toNat_idx (by omega) (Nat.lt_trans (idx_lt hr hc) hfit)
  have hread : ∀ r c, r < rows.toNat → c < channels.toNat →
      read input (UInt64.ofNat r * channels + UInt64.ofNat c) = .ok (x r c) := fun r c hr hc =>
    read_ok (hidx r c hr hc) (hx.2 r hr c hc)
  have hCn := toNat_lt channels
  have hsmall : ∀ c, c < channels.toNat → (UInt64.ofNat c).toNat = c := fun c hc => toNat_ofNat_of_lt (by omega)
  simp only [layerNorm, requireSize_ok (ho.trans hprod.symm), requireSize_ok (hx.1.trans hprod.symm),
    requireSize_ok hw.1, requireSize_ok hb.1, throwIf_of_not hne, ok_bind]
  apply mat_loop ho
  intro r out hr hl
  beta_reduce
  rw [sum_loop (f := x r) fun i acc hi => by simp [hread r i hr hi], ok_bind]
  generalize hm : sumFrom 0 channels.toNat (x r) / Scalar.ofSize channels.toNat = mean
  rw [sum_loop (f := fun i => (x r i - mean) * (x r i - mean)) fun i acc hi => by simp [hread r i hr hi], ok_bind]
  apply fill_loop (by rw [hl]; exact row_end_le hr)
  intro c out' hc hF
  have hlen : r * channels.toNat + c < out'.length := by rw [hF.length, hl]; exact idx_lt hr hc
  simp [hread r c hr hc, read_ok (hsmall c hc) (hw.2 c hc), read_ok (hsmall c hc) (hb.2 c hc),
    write_ok _ (hidx r c hr hc) hlen, layerNormRow, hm]

/-! ## `linear` -/

/-- What the bias argument contributes: nothing when empty, otherwise its entries. -/
def IsBias (bias : List α) (n : Nat) (b : Nat → α) : Prop :=
  (bias = [] ∧ b = fun _ => 0) ∨ (bias ≠ [] ∧ IsVec bias n b)

theorem IsBias.of_vec {bias : List α} {n : Nat} {b : Nat → α} (hn : 0 < n) (h : IsVec bias n b) : IsBias bias n b := by
  refine .inr ⟨?_, h⟩
  rintro rfl
  have := h.1
  simp at this
  omega

theorem IsBias.requireBias_ok {bias : List α} {n : UInt64} {b : Nat → α} (h : IsBias bias n.toNat b) :
    requireBias bias n = .ok () := by
  rcases h with ⟨rfl, _⟩ | ⟨hne, hv⟩
  · rfl
  · simp [requireBias, hne, requireSize_ok hv.1]

theorem IsBias.biasOrZero_ok {bias : List α} {n : UInt64} {b : Nat → α} (h : IsBias bias n.toNat b) {o : Nat}
    (ho : o < n.toNat) : biasOrZero bias (UInt64.ofNat o) = .ok (b o) := by
  have hn := toNat_lt n
  rcases h with ⟨rfl, rfl⟩ | ⟨hne, hv⟩
  · rfl
  · simp [biasOrZero, hne, read_ok (toNat_ofNat_of_lt (by omega)) (hv.2 o ho)]

theorem linear_ok {rows : UInt64} (inputChannels outputChannels : UInt64) {output input weight bias : List α}
    {x w : Nat → Nat → α} {b : Nat → α}
    (hout : rows.toNat * outputChannels.toNat < 2 ^ 64) (hin : rows.toNat * inputChannels.toNat < 2 ^ 64)
    (hwt : outputChannels.toNat * inputChannels.toNat < 2 ^ 64)
    (ho : output.length = rows.toNat * outputChannels.toNat) (hx : IsMat input rows.toNat inputChannels.toNat x)
    (hw : IsMat weight outputChannels.toNat inputChannels.toNat w) (hb : IsBias bias outputChannels.toNat b) :
    ∃ out, linear output input weight bias rows inputChannels outputChannels = .ok out ∧
      IsMat out rows.toNat outputChannels.toNat (fun r => linearRow inputChannels.toNat (x r) w b) := by
  have hR := toNat_lt rows
  have hO := toNat_lt outputChannels
  have hidx : ∀ r o, r < rows.toNat → o < outputChannels.toNat →
      (UInt64.ofNat r * outputChannels + UInt64.ofNat o).toNat = r * outputChannels.toNat + o := fun r o hr ho =>
    toNat_idx (by omega) (Nat.lt_trans (idx_lt hr ho) hout)
  have hread : ∀ r i, r < rows.toNat → i < inputChannels.toNat →
      read input (UInt64.ofNat r * inputChannels + UInt64.ofNat i) = .ok (x r i) := fun r i hr hi =>
    read_ok (toNat_idx (by omega) (Nat.lt_trans (idx_lt hr hi) hin)) (hx.2 r hr i hi)
  have hreadw : ∀ o i, o < outputChannels.toNat → i < inputChannels.toNat →
      read weight (UInt64.ofNat o * inputChannels + UInt64.ofNat i) = .ok (w o i) := fun o i ho hi =>
    read_ok (toNat_idx (by omega) (Nat.lt_trans (idx_lt ho hi) hwt)) (hw.2 o ho i hi)
  simp only [linear, requireSize_ok (ho.trans (toNat_mul_of_lt hout).symm),
    requireSize_ok (hx.1.trans (toNat_mul_of_lt hin).symm), requireSize_ok (hw.1.trans (toNat_mul_of_lt hwt).symm),
    hb.requireBias_ok, ok_bind]
  apply mat_loop ho
  intro r out hr hl
  apply fill_loop (by rw [hl]; exact row_end_le hr)
  intro o out' ho' hF
  have hlen : r * outputChannels.toNat + o < out'.length := by rw [hF.length, hl]; exact idx_lt hr ho'
  beta_reduce
  rw [hb.biasOrZero_ok ho', ok_bind, sum_loop (f := fun i => x r i * w o i) fun i acc hi => by simp [hread r i hr hi, hreadw o i ho' hi], ok_bind]
  exact write_ok _ (hidx r o hr ho') hlen

/-! ## `gelu_in_place`, `add_in_place` -/

theorem geluScalar_eq (value : α) : geluScalar value = gelu value := rfl

theorem geluInPlace_mat {values : List α} {R C : Nat} {x : Nat → Nat → α} (h : IsMat values R C x) :
    IsMat (geluInPlace values) R C (fun r c => gelu (x r c)) :=
  ⟨by simp [geluInPlace, h.1], fun r hr c hc => by simp [geluInPlace, h.2 r hr c hc, geluScalar_eq]⟩

theorem addInPlace_ok {destination source : List α} {R C : Nat} {x y : Nat → Nat → α} (hfit : R * C < 2 ^ 64)
    (hx : IsMat destination R C x) (hy : IsMat source R C y) :
    ∃ out, addInPlace destination source = .ok out ∧ IsMat out R C (fun r c => x r c + y r c) := by
  have hsize : source.length = (UInt64.ofNat destination.length).toNat := by
    rw [toNat_ofNat_of_lt (by rw [hx.1]; exact hfit), hx.1, hy.1]
  simp only [addInPlace, requireSize_ok hsize, ok_bind]
  have hstep : ∀ i out, i < destination.length →
      Fills destination out 0 i (fun i => x (i / C) (i % C) + y (i / C) (i % C)) →
      (do
        let d ← read out (UInt64.ofNat i)
        let s ← read source (UInt64.ofNat i)
        write out (UInt64.ofNat i) (d + s)) =
      .ok (out.set (0 + i) (x (i / C) (i % C) + y (i / C) (i % C))) := by
    intro i out hi hF
    have hi' : i < R * C := by rwa [hx.1] at hi
    have hn : (UInt64.ofNat i).toNat = i := toNat_ofNat_of_lt (by omega)
    have hd : out[i]? = some (x (i / C) (i % C)) := by
      rw [hF.frame i (by omega)]; exact hx.toVec.2 i hi'
    simp [read_ok hn hd, read_ok hn (hy.toVec.2 i hi'), write_ok _ hn (show i < out.length by rw [hF.length]; exact hi)]
  obtain ⟨out, hok, hF⟩ := fill_loop (by omega) hstep
  rw [hx.1] at hF
  exact ⟨out, hok, hF.toMat (g := fun r c => x r c + y r c) hx.1⟩

/-! ## One row -/

theorem layerNorm_row_ok {channels : UInt64} {output input weight bias : List α} {x w b : Nat → α}
    (hC : 0 < channels.toNat) (ho : output.length = channels.toNat) (hx : IsVec input channels.toNat x)
    (hw : IsVec weight channels.toNat w) (hb : IsVec bias channels.toNat b) :
    ∃ out, layerNorm output input weight bias 1 channels = .ok out ∧
      IsVec out channels.toNat (layerNormRow channels.toNat x w b) := by
  have h1 : (1 : UInt64).toNat = 1 := rfl
  have hC64 := toNat_lt channels
  obtain ⟨out, hok, hm⟩ := layerNorm_ok (by rw [h1, Nat.one_mul]; exact hC64) hC (by rw [h1, Nat.one_mul]; exact ho)
    hx.row hw hb
  exact ⟨out, hok, hm.one_row⟩

theorem linear_row_ok (inputChannels outputChannels : UInt64) {output input weight bias : List α} {x : Nat → α}
    {w : Nat → Nat → α} {b : Nat → α} (hwt : outputChannels.toNat * inputChannels.toNat < 2 ^ 64)
    (ho : output.length = outputChannels.toNat) (hx : IsVec input inputChannels.toNat x)
    (hw : IsMat weight outputChannels.toNat inputChannels.toNat w) (hb : IsBias bias outputChannels.toNat b) :
    ∃ out, linear output input weight bias 1 inputChannels outputChannels = .ok out ∧
      IsVec out outputChannels.toNat (linearRow inputChannels.toNat x w b) := by
  have h1 : (1 : UInt64).toNat = 1 := rfl
  have hI := toNat_lt inputChannels
  have hO := toNat_lt outputChannels
  obtain ⟨out, hok, hm⟩ := linear_ok inputChannels outputChannels (by rw [h1, Nat.one_mul]; exact hO)
    (by rw [h1, Nat.one_mul]; exact hI) hwt (by rw [h1, Nat.one_mul]; exact ho) hx.row hw hb
  exact ⟨out, hok, hm.one_row⟩

theorem geluInPlace_vec {values : List α} {n : Nat} {x : Nat → α} (h : IsVec values n x) :
    IsVec (geluInPlace values) n (fun c => gelu (x c)) := (geluInPlace_mat h.row).one_row

theorem addInPlace_vec_ok {destination source : List α} {n : Nat} {x y : Nat → α} (hfit : n < 2 ^ 64)
    (hx : IsVec destination n x) (hy : IsVec source n y) :
    ∃ out, addInPlace destination source = .ok out ∧ IsVec out n (fun c => x c + y c) := by
  obtain ⟨out, hok, hm⟩ := addInPlace_ok (by omega) hx.row hy.row
  exact ⟨out, hok, hm.one_row⟩

/-! ## Attention -/

theorem attendScores_ok {query keys scoreScratch : List α} {queryBase : UInt64} {keyBase : UInt64 → UInt64}
    {n : Nat} {headSize : UInt64} {q : Nat → α} {k : Nat → Nat → α} (hn : n ≤ scoreScratch.length) (hn64 : n < 2 ^ 64)
    (hq : ∀ i, i < headSize.toNat → read query (queryBase + UInt64.ofNat i) = .ok (q i))
    (hk : ∀ s, s < n → ∀ i, i < headSize.toNat →
      read keys (keyBase (UInt64.ofNat s) + UInt64.ofNat i) = .ok (k s i)) :
    ∃ scratch, attendScores query keys scoreScratch queryBase keyBase n headSize
        (1 / Scalar.sqrt (Scalar.ofSize headSize.toNat)) =
          .ok (scratch, scoreMax n fun s => headScore headSize.toNat q (k s)) ∧
      Fills scoreScratch scratch 0 n (fun s => headScore headSize.toNat q (k s)) := by
  apply fill_acc_loop (f := fun s m => stdMax m (headScore headSize.toNat q (k s))) (by omega)
  intro s scr m hs hF
  have hlt : s < scr.length := by rw [hF.length]; omega
  beta_reduce
  rw [sum_loop (f := fun i => q i * k s i) fun i acc hi => by simp [hq i hi, hk s hs i hi]]
  simp [write_ok _ (toNat_ofNat_of_lt (by omega)) hlt, headScore]

theorem attendExponentials_ok {scoreScratch : List α} {n : Nat} {score : Nat → α} (m : α)
    (hn : n ≤ scoreScratch.length) (hn64 : n < 2 ^ 64) (hs : ∀ s, s < n → scoreScratch[s]? = some (score s)) :
    ∃ scratch, attendExponentials scoreScratch n m =
        .ok (scratch, sumFrom 0 n fun s => Scalar.exp (score s - m)) ∧
      Fills scoreScratch scratch 0 n (fun s => Scalar.exp (score s - m)) := by
  apply fill_acc_loop (f := fun s acc => acc + Scalar.exp (score s - m)) (by omega)
  intro s scr acc hsn hF
  have hlt : s < scr.length := by rw [hF.length]; omega
  have hi : (UInt64.ofNat s).toNat = s := toNat_ofNat_of_lt (by omega)
  have hget : scr[s]? = some (score s) := by rw [hF.frame s (by omega)]; exact hs s hsn
  simp [read_ok hi hget, write_ok _ hi hlt]

theorem attendValues_ok {output values scoreScratch : List α} {outputBase : UInt64} {valueBase : UInt64 → UInt64}
    {n ob : Nat} {headSize : UInt64} {e : Nat → α} {v : Nat → Nat → α} (inverseSum : α) (hn64 : n < 2 ^ 64)
    (he : ∀ s, s < n → scoreScratch[s]? = some (e s))
    (hv : ∀ s, s < n → ∀ i, i < headSize.toNat →
      read values (valueBase (UInt64.ofNat s) + UInt64.ofNat i) = .ok (v s i))
    (hob : ∀ i, i < headSize.toNat → (outputBase + UInt64.ofNat i).toNat = ob + i)
    (hlen : ob + headSize.toNat ≤ output.length) (hzero : ∀ i, i < headSize.toNat → output[ob + i]? = some 0) :
    ∃ out, attendValues output values scoreScratch outputBase valueBase n headSize inverseSum = .ok out ∧
      Fills output out ob headSize.toNat (fun i => sumFrom 0 n fun s => e s * inverseSum * v s i) := by
  apply forN_spec (I := fun n out => Fills output out ob headSize.toNat fun i =>
    sumFrom 0 n fun s => e s * inverseSum * v s i) (Fills.of_get hzero)
  intro s out hs hF
  simp only [read_ok (toNat_ofNat_of_lt (show s < 2 ^ 64 by omega)) (he s hs), ok_bind]
  obtain ⟨out', hok, hF'⟩ : ∃ out', forSize headSize.toNat out (fun index output => do
        let o ← read output (outputBase + index)
        let v ← read values (valueBase (UInt64.ofNat s) + index)
        write output (outputBase + index) (o + e s * inverseSum * v)) = .ok out' ∧
      Fills out out' ob headSize.toNat (fun i => sumFrom 0 (s + 1) fun s => e s * inverseSum * v s i) := by
    apply fill_loop (by rw [hF.length]; exact hlen)
    intro i out' hi hF'
    have ho : out'[ob + i]? = some (sumFrom 0 s fun s => e s * inverseSum * v s i) := by
      rw [hF'.frame _ (by omega)]; exact hF.get i hi
    have hlt : ob + i < out'.length := by rw [hF'.length, hF.length]; omega
    simp only [read_ok (hob i hi) ho, hv s hs i hi, ok_bind, write_ok _ (hob i hi) hlt]
    rfl
  exact ⟨out', hok, hF.overwrite hF'⟩

/-- Whatever the scratch held, the head's output block (zero on entry) becomes `attentionHead`. -/
theorem attendHead_ok (output scoreScratch : List α) {query keys values : List α} {queryBase outputBase : UInt64}
    {keyBase valueBase : UInt64 → UInt64} {n ob : Nat} {headSize : UInt64} {q : Nat → α} {k v : Nat → Nat → α}
    (hn : n ≤ scoreScratch.length) (hn64 : n < 2 ^ 64)
    (hq : ∀ i, i < headSize.toNat → read query (queryBase + UInt64.ofNat i) = .ok (q i))
    (hk : ∀ s, s < n → ∀ i, i < headSize.toNat →
      read keys (keyBase (UInt64.ofNat s) + UInt64.ofNat i) = .ok (k s i))
    (hv : ∀ s, s < n → ∀ i, i < headSize.toNat →
      read values (valueBase (UInt64.ofNat s) + UInt64.ofNat i) = .ok (v s i))
    (hob : ∀ i, i < headSize.toNat → (outputBase + UInt64.ofNat i).toNat = ob + i)
    (hlen : ob + headSize.toNat ≤ output.length) (hzero : ∀ i, i < headSize.toNat → output[ob + i]? = some 0) :
    ∃ out scratch, attendHead output query keys values scoreScratch queryBase outputBase keyBase valueBase n headSize
        (1 / Scalar.sqrt (Scalar.ofSize headSize.toNat)) = .ok (out, scratch) ∧
      scratch.length = scoreScratch.length ∧
      Fills output out ob headSize.toNat (attentionHead n headSize.toNat q k v) := by
  obtain ⟨scr1, h1, hF1⟩ := attendScores_ok hn hn64 hq hk
  obtain ⟨scr2, h2, hF2⟩ := attendExponentials_ok (scoreMax n fun s => headScore headSize.toNat q (k s))
    (by rw [hF1.length]; exact hn) hn64 (fun s hs => by simpa using hF1.get s hs)
  generalize hz : sumFrom 0 n (fun s => Scalar.exp (headScore headSize.toNat q (k s) -
    scoreMax n fun s => headScore headSize.toNat q (k s))) = z at h2
  obtain ⟨out, h3, hF3⟩ := attendValues_ok (if Scalar.eq z 0 then 0 else 1 / z) hn64
    (fun s hs => by simpa using hF2.get s hs) hv hob hlen hzero
  refine ⟨out, scr2, ?_, hF2.length.trans hF1.length, ?_⟩
  · simp only [attendHead, h1, h2, h3, ok_bind, pure_ok]
  · subst hz; exact hF3

/-- The dimension check both attention kernels make. -/
theorem attention_dims {channels numHeads : UInt64} (hC : 0 < channels.toNat) (hH : numHeads.toNat ∣ channels.toNat) :
    ¬(numHeads = 0 ∨ channels = 0 ∨ channels % numHeads ≠ 0) ∧
      numHeads.toNat * (channels / numHeads).toNat = channels.toNat ∧ 0 < numHeads.toNat := by
  have hpos : 0 < numHeads.toNat := Nat.pos_of_dvd_of_pos hH hC
  refine ⟨?_, by rw [UInt64.toNat_div]; exact Nat.mul_div_cancel' hH, hpos⟩
  rintro (h | h | h)
  · rw [eq_zero_iff] at h; omega
  · rw [eq_zero_iff] at h; omega
  · apply h
    rw [eq_zero_iff, UInt64.toNat_mod]
    exact Nat.mod_eq_zero_of_dvd hH

/-- All heads of one query row: the output row (zero on entry) becomes `attentionRow`. The strides
enter through the reads of channel `h * hs + i` of the query row and of source `s`. -/
theorem attendRow_ok {output query keys values scoreScratch : List α} {headSize : UInt64} {n ob H C L : Nat}
    {queryBase outputBase : UInt64 → UInt64} {keyBase valueBase : UInt64 → UInt64 → UInt64} {q : Nat → α}
    {k v : Nat → Nat → α} (hHC : H * headSize.toNat = C) (hC : 0 < C)
    (hn : n ≤ L) (hn64 : n < 2 ^ 64) (hL : scoreScratch.length = L)
    (hq : ∀ h i, h < H → i < headSize.toNat →
      read query (queryBase (UInt64.ofNat h) + UInt64.ofNat i) = .ok (q (h * headSize.toNat + i)))
    (hk : ∀ s h i, s < n → h < H → i < headSize.toNat →
      read keys (keyBase (UInt64.ofNat h) (UInt64.ofNat s) + UInt64.ofNat i) = .ok (k s (h * headSize.toNat + i)))
    (hv : ∀ s h i, s < n → h < H → i < headSize.toNat →
      read values (valueBase (UInt64.ofNat h) (UInt64.ofNat s) + UInt64.ofNat i) = .ok (v s (h * headSize.toNat + i)))
    (hob : ∀ h i, h < H → i < headSize.toNat →
      (outputBase (UInt64.ofNat h) + UInt64.ofNat i).toNat = ob + h * headSize.toNat + i)
    (hlen : ob + C ≤ output.length) (hzero : ∀ c, c < C → output[ob + c]? = some 0) :
    ∃ out scratch, forSize H (output, scoreScratch) (fun head (output, scoreScratch) =>
        attendHead output query keys values scoreScratch (queryBase head) (outputBase head) (keyBase head)
          (valueBase head) n headSize (1 / Scalar.sqrt (Scalar.ofSize headSize.toNat))) = .ok (out, scratch) ∧
      scratch.length = L ∧ Fills output out ob C (attentionRow n C H q k v) := by
  have hH : 0 < H := Nat.pos_of_ne_zero fun h => by subst h; simp at hHC; omega
  have hhs : C / H = headSize.toNat := by rw [← hHC]; exact Nat.mul_div_cancel_left _ hH
  unfold attentionRow
  rw [hhs, ← hHC]
  apply block_loop_with (P := fun scr : List α => scr.length = L) (g := fun h => attentionHead n headSize.toNat
    (fun i => q (h * headSize.toNat + i)) (fun s i => k s (h * headSize.toNat + i))
    (fun s i => v s (h * headSize.toNat + i))) hL
  intro h out scr hh hl hframe hscr
  have hle := row_end_le (C := headSize.toNat) hh
  obtain ⟨out', scr', hok, hlen', hF⟩ := attendHead_ok out scr (by rw [hscr]; exact hn) hn64
    (fun i hi => hq h i hh hi) (fun s hs i hi => hk s h i hs hh hi) (fun s hs i hi => hv s h i hs hh hi)
    (fun i hi => hob h i hh hi) (by omega) (fun i hi => by
      have := idx_lt hh hi
      rw [hframe _ (by omega), Nat.add_assoc]
      exact hzero _ (by omega))
  exact ⟨out', scr', hok, by rw [hlen', hscr], hF⟩

/-- Channel `i` of head `h` is a channel, and its index does not wrap. -/
theorem head_idx {channels numHeads : UInt64} (hHC : numHeads.toNat * (channels / numHeads).toNat = channels.toNat) {h i : Nat}
    (hh : h < numHeads.toNat) (hi : i < (channels / numHeads).toNat) :
    (UInt64.ofNat h * (channels / numHeads)).toNat = h * (channels / numHeads).toNat ∧ (UInt64.ofNat i).toNat = i ∧
      h * (channels / numHeads).toNat + i < channels.toNat := by
  have hC64 := toNat_lt channels
  have hH64 := toNat_lt numHeads
  have hlt := idx_lt hh hi
  rw [hHC] at hlt
  exact ⟨toNat_mul_eq (toNat_ofNat_of_lt (by omega)) rfl (by omega), toNat_ofNat_of_lt (by omega), hlt⟩

/-- Row `s` of `qkv` starts at `s * (3 * C)`. -/
theorem qkv_row_base {sequenceLength channels : UInt64} (hfit : sequenceLength.toNat * (3 * channels.toNat) < 2 ^ 64)
    (hC : 0 < channels.toNat) {s : Nat} (hs : s < sequenceLength.toNat) :
    (UInt64.ofNat s * 3 * channels).toNat = s * (3 * channels.toNat) := by
  have hT64 := toNat_lt sequenceLength
  have hle : s * (3 * channels.toNat) ≤ sequenceLength.toNat * (3 * channels.toNat) := Nat.mul_le_mul_right _ (by omega)
  rw [← Nat.mul_assoc] at hle ⊢
  have h3 : s * 3 ≤ s * 3 * channels.toNat := Nat.le_mul_of_pos_right _ hC
  exact toNat_mul_eq (toNat_mul_eq (toNat_ofNat_of_lt (by omega)) rfl (by omega)) rfl (by omega)

section
variable {qkv : List α} {sequenceLength channels numHeads : UInt64} {f : Nat → Nat → α}
  (hfit : sequenceLength.toNat * (3 * channels.toNat) < 2 ^ 64) (hC : 0 < channels.toNat)
  (hH : numHeads.toNat ∣ channels.toNat) (hq : IsMat qkv sequenceLength.toNat (3 * channels.toNat) f)
omit [Scalar α]
include hfit hC hH hq

/-- Channel `i` of head `h` in the block that starts `b` entries into row `s` of `qkv`. -/
theorem read_qkv {s h i b : Nat} {base : UInt64} (hs : s < sequenceLength.toNat) (hh : h < numHeads.toNat)
    (hi : i < (channels / numHeads).toNat) (hb : b + channels.toNat ≤ 3 * channels.toNat)
    (hbase : base.toNat = s * (3 * channels.toNat) + b) :
    read qkv (base + UInt64.ofNat h * (channels / numHeads) + UInt64.ofNat i) =
      .ok (f s (b + (h * (channels / numHeads).toNat + i))) := by
  obtain ⟨-, hHC, -⟩ := attention_dims hC hH
  obtain ⟨e1, e2, hlt⟩ := head_idx hHC hh hi
  have hin := Nat.lt_trans (idx_lt hs (show b + (h * (channels / numHeads).toNat + i) < 3 * channels.toNat by omega)) hfit
  refine read_ok (toNat_add_eq (toNat_add_eq hbase e1 (by omega)) e2 (by omega)) ?_
  rw [Nat.add_assoc, Nat.add_assoc]
  exact hq.2 s hs _ (by omega)

theorem read_query {s h i : Nat} (hs : s < sequenceLength.toNat) (hh : h < numHeads.toNat)
    (hi : i < (channels / numHeads).toNat) :
    read qkv (UInt64.ofNat s * 3 * channels + UInt64.ofNat h * (channels / numHeads) + UInt64.ofNat i) =
      .ok (f s (h * (channels / numHeads).toNat + i)) := by
  have hread := read_qkv hfit hC hH hq (b := 0) hs hh hi (by omega) (qkv_row_base hfit hC hs)
  rwa [Nat.zero_add] at hread

theorem read_key {s h i : Nat} (hs : s < sequenceLength.toNat) (hh : h < numHeads.toNat)
    (hi : i < (channels / numHeads).toNat) :
    read qkv (UInt64.ofNat s * 3 * channels + channels + UInt64.ofNat h * (channels / numHeads) + UInt64.ofNat i) =
      .ok (f s (channels.toNat + (h * (channels / numHeads).toNat + i))) := by
  have hend := row_end_le (C := 3 * channels.toNat) hs
  exact read_qkv hfit hC hH hq hs hh hi (by omega) (toNat_add_eq (qkv_row_base hfit hC hs) rfl (by omega))

theorem read_value {s h i : Nat} (hs : s < sequenceLength.toNat) (hh : h < numHeads.toNat)
    (hi : i < (channels / numHeads).toNat) :
    read qkv (UInt64.ofNat s * 3 * channels + 2 * channels + UInt64.ofNat h * (channels / numHeads) + UInt64.ofNat i) =
      .ok (f s (2 * channels.toNat + (h * (channels / numHeads).toNat + i))) := by
  have hend := row_end_le (C := 3 * channels.toNat) hs
  have h2C : (2 * channels).toNat = 2 * channels.toNat := toNat_mul_eq rfl rfl (by omega)
  exact read_qkv hfit hC hH hq hs hh hi (by omega) (toNat_add_eq (qkv_row_base hfit hC hs) h2C (by omega))

end

theorem causalSelfAttention_ok {output qkv scoreScratch : List α} {sequenceLength channels numHeads : UInt64}
    {f : Nat → Nat → α} (hfit : sequenceLength.toNat * (3 * channels.toNat) < 2 ^ 64) (hC : 0 < channels.toNat)
    (hH : numHeads.toNat ∣ channels.toNat) (ho : output.length = sequenceLength.toNat * channels.toNat)
    (hq : IsMat qkv sequenceLength.toNat (3 * channels.toNat) f) (hs : scoreScratch.length = sequenceLength.toNat) :
    ∃ out scratch, causalSelfAttention output qkv scoreScratch sequenceLength channels numHeads = .ok (out, scratch) ∧
      scratch.length = sequenceLength.toNat ∧
      IsMat out sequenceLength.toNat channels.toNat (attend channels.toNat numHeads.toNat f) := by
  obtain ⟨hdims, hHC, -⟩ := attention_dims hC hH
  have hT64 := toNat_lt sequenceLength
  have hTC : sequenceLength.toNat * channels.toNat < 2 ^ 64 :=
    Nat.lt_of_le_of_lt (Nat.mul_le_mul_left _ (by omega)) hfit
  have hT3 : sequenceLength.toNat * 3 * channels.toNat < 2 ^ 64 := by rwa [Nat.mul_assoc]
  have hsize : (sequenceLength * channels).toNat = sequenceLength.toNat * channels.toNat := toNat_mul_eq rfl rfl hTC
  have hsize3 : (sequenceLength * 3 * channels).toNat = sequenceLength.toNat * (3 * channels.toNat) := by
    rw [← Nat.mul_assoc]
    exact toNat_mul_eq (toNat_mul_eq rfl rfl (Nat.lt_of_le_of_lt (Nat.le_mul_of_pos_right _ hC) hT3)) rfl hT3
  simp only [causalSelfAttention, requireSize_ok (ho.trans hsize.symm), requireSize_ok (hq.1.trans hsize3.symm),
    requireSize_ok hs, throwIf_of_not hdims, ok_bind]
  have hl0 : (List.replicate output.length (0 : α)).length = sequenceLength.toNat * channels.toNat := by simpa using ho
  apply mat_loop_with (P := fun scr : List α => scr.length = sequenceLength.toNat) hl0 hs
  intro p out scr hp hl hframe hscr
  have hrowC := row_end_le (C := channels.toNat) hp
  beta_reduce
  rw [toNat_ofNat_of_lt (show p < 2 ^ 64 by omega)]
  apply attendRow_ok hHC hC (by omega) (by omega) hscr
  · intro h i hh hi
    exact read_query hfit hC hH hq hp hh hi
  · intro s h i hs hh hi
    exact read_key hfit hC hH hq (by omega) hh hi
  · intro s h i hs hh hi
    exact read_value hfit hC hH hq (by omega) hh hi
  · intro h i hh hi
    obtain ⟨e1, e2, hlt⟩ := head_idx hHC hh hi
    have e0 : (UInt64.ofNat p * channels).toNat = p * channels.toNat :=
      toNat_mul_eq (toNat_ofNat_of_lt (by omega)) rfl (by omega)
    exact toNat_add_eq (toNat_add_eq e0 e1 (by omega)) e2 (by omega)
  · rw [hl]; exact hrowC
  · intro c hc
    have hlt : p * channels.toNat + c < output.length := by rw [ho]; omega
    rw [hframe (p * channels.toNat + c) (by omega)]
    simp [hlt]

omit [Scalar α] in
/-- Channel `i` of head `h` in a visible row of a cache. The row is there, so its indices are sizes. -/
theorem read_cache {cache : List α} {capacity channels numHeads : UInt64} {n : Nat} {g : Nat → Nat → α}
    (hHC : numHeads.toNat * (channels / numHeads).toNat = channels.toNat) (hn : n < 2 ^ 64)
    (hl : cache.length = (capacity * channels).toNat)
    (hg : ∀ s, s < n → ∀ c, c < channels.toNat → cache[s * channels.toNat + c]? = some (g s c)) {s h i : Nat} (hs : s < n)
    (hh : h < numHeads.toNat) (hi : i < (channels / numHeads).toNat) :
    read cache (UInt64.ofNat s * channels + UInt64.ofNat h * (channels / numHeads) + UInt64.ofNat i) =
      .ok (g s (h * (channels / numHeads).toNat + i)) := by
  have hsize := toNat_lt (capacity * channels)
  obtain ⟨e1, e2, hlt⟩ := head_idx hHC hh hi
  obtain ⟨hin, -⟩ := List.getElem?_eq_some_iff.1 (hg s hs _ hlt)
  rw [hl] at hin
  have e0 : (UInt64.ofNat s * channels).toNat = s * channels.toNat :=
    toNat_mul_eq (toNat_ofNat_of_lt (by omega)) rfl (by omega)
  refine read_ok (toNat_add_eq (toNat_add_eq e0 e1 (by omega)) e2 (by omega)) ?_
  rw [Nat.add_assoc]
  exact hg s hs _ hlt

/-- Only the visible rows of the caches matter, and only they have to be inside the spans. -/
theorem cachedSelfAttention_visible {output query keyCache valueCache scoreScratch : List α}
    {visibleLength capacity channels numHeads : UInt64} {q : Nat → α} {k v : Nat → Nat → α} (hC : 0 < channels.toNat)
    (hH : numHeads.toNat ∣ channels.toNat) (hvis : 0 < visibleLength.toNat)
    (hcap : visibleLength.toNat ≤ capacity.toNat) (ho : output.length = channels.toNat)
    (hq : IsVec query channels.toNat q) (hkl : keyCache.length = (capacity * channels).toNat)
    (hvl : valueCache.length = (capacity * channels).toNat)
    (hk : ∀ s, s < visibleLength.toNat → ∀ c, c < channels.toNat → keyCache[s * channels.toNat + c]? = some (k s c))
    (hv : ∀ s, s < visibleLength.toNat → ∀ c, c < channels.toNat → valueCache[s * channels.toNat + c]? = some (v s c))
    (hs : scoreScratch.length = capacity.toNat) :
    ∃ out scratch, cachedSelfAttention output query keyCache valueCache scoreScratch visibleLength capacity channels
        numHeads = .ok (out, scratch) ∧
      scratch.length = capacity.toNat ∧
      IsVec out channels.toNat (attentionRow visibleLength.toNat channels.toNat numHeads.toNat q k v) := by
  obtain ⟨hdims, hHC, hHpos⟩ := attention_dims hC hH
  have hV64 := toNat_lt visibleLength
  have hC64 := toNat_lt channels
  have hvis' : ¬(visibleLength = 0 ∨ capacity < visibleLength) := by
    rw [eq_zero_iff, lt_iff]; omega
  simp only [cachedSelfAttention, requireSize_ok ho, requireSize_ok hq.1, requireSize_ok hkl, requireSize_ok hvl,
    requireSize_ok hs, throwIf_of_not hvis', throwIf_of_not hdims, ok_bind]
  have hl0 : (List.replicate output.length (0 : α)).length = channels.toNat := by simpa using ho
  obtain ⟨out, scr, hok, hP, hF⟩ : ∃ out scr, forSize numHeads.toNat
      (List.replicate output.length (0 : α), scoreScratch) (fun head (output, scoreScratch) =>
        attendHead output query keyCache valueCache scoreScratch (head * (channels / numHeads))
          (head * (channels / numHeads)) (fun source => source * channels + head * (channels / numHeads))
          (fun source => source * channels + head * (channels / numHeads)) visibleLength.toNat (channels / numHeads)
          (1 / Scalar.sqrt (Scalar.ofSize (channels / numHeads).toNat))) = .ok (out, scr) ∧
      scr.length = capacity.toNat ∧ Fills (List.replicate output.length (0 : α)) out 0 channels.toNat
        (attentionRow visibleLength.toNat channels.toNat numHeads.toNat q k v) := by
    apply attendRow_ok hHC hC hcap hV64 hs
    · intro h i hh hi
      obtain ⟨e1, e2, hlt⟩ := head_idx hHC hh hi
      exact read_ok (toNat_add_eq e1 e2 (by omega)) (hq.2 _ hlt)
    · intro s h i hs hh hi
      exact read_cache hHC hV64 hkl hk hs hh hi
    · intro s h i hs hh hi
      exact read_cache hHC hV64 hvl hv hs hh hi
    · intro h i hh hi
      obtain ⟨e1, e2, hlt⟩ := head_idx hHC hh hi
      rw [Nat.zero_add]
      exact toNat_add_eq e1 e2 (by omega)
    · omega
    · intro c hc; simp [ho, hc]
  exact ⟨out, scr, hok, hP, hF.toVec hl0⟩

theorem cachedSelfAttention_ok {output query keyCache valueCache scoreScratch : List α}
    {visibleLength capacity channels numHeads : UInt64} {q : Nat → α} {k v : Nat → Nat → α}
    (hfit : capacity.toNat * channels.toNat < 2 ^ 64) (hC : 0 < channels.toNat)
    (hH : numHeads.toNat ∣ channels.toNat) (hvis : 0 < visibleLength.toNat)
    (hcap : visibleLength.toNat ≤ capacity.toNat) (ho : output.length = channels.toNat)
    (hq : IsVec query channels.toNat q) (hk : IsMat keyCache capacity.toNat channels.toNat k)
    (hv : IsMat valueCache capacity.toNat channels.toNat v) (hs : scoreScratch.length = capacity.toNat) :
    ∃ out scratch, cachedSelfAttention output query keyCache valueCache scoreScratch visibleLength capacity channels
        numHeads = .ok (out, scratch) ∧
      scratch.length = capacity.toNat ∧
      IsVec out channels.toNat (attentionRow visibleLength.toNat channels.toNat numHeads.toNat q k v) := by
  have hsize := toNat_mul_of_lt hfit
  refine cachedSelfAttention_visible hC hH hvis hcap ho hq (hk.1.trans hsize.symm) (hv.1.trans hsize.symm) ?_ ?_ hs
  · intro s hs c hc
    exact hk.2 s (by omega) c hc
  · intro s hs c hc
    exact hv.2 s (by omega) c hc

end Gpt2Runtime.Kernels
