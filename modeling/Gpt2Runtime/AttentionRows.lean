import Gpt2Runtime.KernelBounds
/-
# Cached attention is a row of causal attention (`kernels.cpp:98-208`)

| here | there |
| --- | --- |
| `rowOf`                | row `r` of a buffer of `C`-wide rows |
| `qkvBlock`             | one of the three `C`-wide blocks of a row of `qkv` |

Both kernels reduce to `attentionRow`, the causal one on the blocks of its `qkv`, the cached one on the rows
it sees; the caches only have to agree with the blocks there.
-/

namespace Gpt2Runtime.Kernels

open Loop Flat Word

variable {α : Type}

def rowOf (buffer : List α) (C r : Nat) : List α := (buffer.drop (r * C)).take C

/-- Block 0 is the query, 1 the key and 2 the value of the position. -/
def qkvBlock (qkv : List α) (C block position : Nat) : List α := (qkv.drop (position * (3 * C) + block * C)).take C

theorem isVec_rowOf {buffer : List α} {R C r : Nat} {f : Nat → Nat → α} (h : IsMat buffer R C f) (hr : r < R) :
    IsVec (rowOf buffer C r) C (f r) := by
  have hslice := h.toVec.slice (row_end_le hr)
  refine hslice.congr fun c hc => ?_
  rw [idx_div hc, idx_mod hc]

/-- The entries of a block. -/
theorem isVec_qkvBlock {qkv : List α} {T C block position : Nat} {f : Nat → Nat → α} (h : IsMat qkv T (3 * C) f)
    (hp : position < T) (hb : block < 3) : IsVec (qkvBlock qkv C block position) C fun c => f position (block * C + c) := by
  have hblock := row_end_le (C := C) hb
  have hrow := row_end_le (C := 3 * C) hp
  have hslice := h.toVec.slice (show position * (3 * C) + block * C + C ≤ T * (3 * C) by omega)
  refine hslice.congr fun c hc => ?_
  rw [Nat.add_assoc, idx_div (by omega), idx_mod (by omega)]

/-- A row of a list of rows, entry by entry. -/
theorem getElem?_of_rowOf {buffer : List α} {C r c : Nat} {f : Nat → α} (h : IsVec (rowOf buffer C r) C f) (hc : c < C) :
    buffer[r * C + c]? = some (f c) := by
  have hget := h.2 c hc
  rwa [rowOf, List.getElem?_take_of_lt hc, List.getElem?_drop] at hget

variable [Scalar α] {output qkv scoreScratch out scratch : List α} {sequenceLength channels numHeads : UInt64}

/-- **What a causal call that returned left**: row `p` is the attention of its query block over the key and
value blocks of the positions up to it. -/
theorem causalSelfAttention_row
    (h : causalSelfAttention output qkv scoreScratch sequenceLength channels numHeads = .ok (out, scratch)) :
    0 < channels.toNat ∧ numHeads.toNat ∣ channels.toNat ∧ ∃ f : Nat → Nat → α,
      IsMat qkv sequenceLength.toNat (3 * channels.toNat) f ∧
      IsMat out sequenceLength.toNat channels.toNat (attend channels.toNat numHeads.toNat f) := by
  have hchecks : CausalChecks output qkv scoreScratch sequenceLength channels numHeads := by
    by_contra hno
    obtain ⟨text, herr⟩ := causalSelfAttention_rejects hno
    rw [h] at herr
    exact absurd herr (by simp)
  have hfit := causalSelfAttention_fits hchecks ⟨_, h⟩
  obtain ⟨houtput, hqkv⟩ := hchecks.sizes hfit
  have hmat := (IsVec.of_length (0 : α) hqkv).toMat
  obtain ⟨out', scratch', hok, -, hout⟩ :=
    causalSelfAttention_ok hfit hchecks.dims.positive hchecks.dims.dvd houtput hmat hchecks.scratch
  obtain ⟨rfl, rfl⟩ := Prod.mk.inj (Except.ok.inj (h.symm.trans hok))
  exact ⟨hchecks.dims.positive, hchecks.dims.dvd, _, hmat, hout⟩

/-- **Cached attention is one row of causal attention**, whatever is in the later cache rows, in the
scratches and in the outputs. -/
theorem cached_eq_causal_row
    (hcausal : causalSelfAttention output qkv scoreScratch sequenceLength channels numHeads = .ok (out, scratch))
    {p : Nat} (hp : p < sequenceLength.toNat) {capacity : UInt64} (hcapacity : p + 1 ≤ capacity.toNat)
    {cachedOutput keyCache valueCache cachedScratch : List α} (houtput : cachedOutput.length = channels.toNat)
    (hkeys : keyCache.length = (capacity * channels).toNat) (hvalues : valueCache.length = (capacity * channels).toNat)
    (hscratch : cachedScratch.length = capacity.toNat)
    (hkey : ∀ s, s ≤ p → rowOf keyCache channels.toNat s = qkvBlock qkv channels.toNat 1 s)
    (hvalue : ∀ s, s ≤ p → rowOf valueCache channels.toNat s = qkvBlock qkv channels.toNat 2 s) :
    ∃ cachedOut scratch', cachedSelfAttention cachedOutput (qkvBlock qkv channels.toNat 0 p) keyCache valueCache
        cachedScratch (UInt64.ofNat (p + 1)) capacity channels numHeads = .ok (cachedOut, scratch') ∧
      cachedOut = rowOf out channels.toNat p := by
  obtain ⟨hC, hH, f, hqkv, hout⟩ := causalSelfAttention_row hcausal
  have hcap := toNat_lt capacity
  have hvisible : (UInt64.ofNat (p + 1)).toNat = p + 1 := toNat_ofNat_of_lt (by omega)
  have hquery : IsVec (qkvBlock qkv channels.toNat 0 p) channels.toNat (f p) :=
    (isVec_qkvBlock hqkv hp (by omega)).congr fun c _ => by rw [Nat.zero_mul, Nat.zero_add]
  -- the visible rows are the blocks of the positions
  have hrow : ∀ {cache : List α} {block : Nat}, block < 3 →
      (∀ s, s ≤ p → rowOf cache channels.toNat s = qkvBlock qkv channels.toNat block s) →
      ∀ s, s < (UInt64.ofNat (p + 1)).toNat → ∀ c, c < channels.toNat →
        cache[s * channels.toNat + c]? = some (f s (block * channels.toNat + c)) := by
    intro cache block hb hcache s hs c hc
    rw [hvisible] at hs
    have hblock := isVec_qkvBlock hqkv (show s < sequenceLength.toNat by omega) hb
    rw [← hcache s (by omega)] at hblock
    exact getElem?_of_rowOf hblock hc
  obtain ⟨cachedOut, scratch', hok, -, hcached⟩ := cachedSelfAttention_visible hC hH (by omega) (by omega) houtput hquery
    hkeys hvalues (hrow (by omega) hkey) (hrow (by omega) hvalue) hscratch
  refine ⟨cachedOut, scratch', hok, ?_⟩
  have hrowOut := isVec_rowOf hout hp
  refine hcached.unique (hrowOut.congr fun c _ => ?_)
  rw [hvisible]
  simp only [attend, Nat.one_mul]

/-- Two positions of one channel; the cache has a third row of garbage. -/
theorem cached_eq_causal_row_small : ∃ out scratch cachedOut scratch',
    causalSelfAttention ([7, 7] : List Int) [1, 2, 3, 4, 5, 6] [9, 9] 2 1 1 = .ok (out, scratch) ∧
    cachedSelfAttention [8] [4] [2, 5, 99] [3, 6, -99] [1, 1, 1] 2 3 1 1 = .ok (cachedOut, scratch') ∧
    cachedOut = rowOf out 1 1 := by
  have hcausal : causalSelfAttention ([7, 7] : List Int) [1, 2, 3, 4, 5, 6] [9, 9] 2 1 1 = .ok _ := rfl
  have hrows : ∀ s, s ≤ 1 → rowOf ([2, 5, 99] : List Int) 1 s = qkvBlock [1, 2, 3, 4, 5, 6] 1 1 s ∧
      rowOf ([3, 6, -99] : List Int) 1 s = qkvBlock [1, 2, 3, 4, 5, 6] 1 2 s := by decide
  obtain ⟨cachedOut, scratch', hok, hrow⟩ := @cached_eq_causal_row _ _ _ _ _ _ _ _ _ _ hcausal 1 (by decide) 3 (by decide)
    [8] [2, 5, 99] [3, 6, -99] [1, 1, 1] rfl rfl rfl rfl (fun s hs => (hrows s hs).1) (fun s hs => (hrows s hs).2)
  exact ⟨_, _, cachedOut, scratch', hcausal, hok, hrow⟩

end Gpt2Runtime.Kernels
