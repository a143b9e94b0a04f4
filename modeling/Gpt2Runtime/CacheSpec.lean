import Gpt2Runtime.Session
/-
# The KV cache as two arrays of rows

A cache the constructor returns is `WellFormed`: no offset computation on it wraps, row `(l, p)`
starts at `slot l p`, and distinct rows do not overlap (`slot_disjoint`). `store_ok` writes one row
of each array and keeps the others.
-/

namespace Gpt2Runtime

open Loop Flat Word

variable {α : Type}

theorem copyInto_ok {storage values : List α} {offset : UInt64} {base n : Nat} {f : Nat → α} (ho : offset.toNat = base)
    (hv : IsVec values n f) (hle : base + n ≤ storage.length) :
    ∃ out, copyInto storage offset values = .ok out ∧ Fills storage out base n f := by
  refine ⟨storage.take base ++ values ++ storage.drop (base + n), ?_, ?_, ?_, ?_⟩
  · rw [copyInto, ho, hv.1, if_pos hle]
  · simp only [List.length_append, List.length_take, List.length_drop, hv.1]; omega
  · intro c hc
    rw [List.append_assoc, List.getElem?_append_right (by rw [List.length_take]; omega), List.length_take,
      Nat.min_eq_left (by omega), Nat.add_sub_cancel_left, List.getElem?_append_left (by rw [hv.1]; exact hc)]
    exact hv.2 c hc
  · intro i hi
    by_cases hlt : i < base
    · rw [List.append_assoc, List.getElem?_append_left (by rw [List.length_take]; omega), List.getElem?_take_of_lt hlt]
    · have hlen : (storage.take base ++ values).length = base + n := by
        rw [List.length_append, List.length_take, hv.1]; omega
      rw [List.getElem?_append_right (by omega), hlen, List.getElem?_drop]
      congr 1; omega

namespace KVCache

/-- What the constructor establishes. -/
structure WellFormed (cache : KVCache α) : Prop where
  layers_pos : 0 < cache.numLayers.toNat
  capacity_pos : 0 < cache.capacity.toNat
  channels_pos : 0 < cache.channels.toNat
  layerFloatCount : cache.layerFloatCount.toNat = cache.capacity.toNat * cache.channels.toNat
  fits : 8 * (cache.numLayers.toNat * (cache.capacity.toNat * cache.channels.toNat)) < 2 ^ 64
  keys : cache.keys.length = cache.numLayers.toNat * (cache.capacity.toNat * cache.channels.toNat)
  values : cache.values.length = cache.numLayers.toNat * (cache.capacity.toNat * cache.channels.toNat)

/-- **The constructor is exact.** -/
theorem make_ok_iff [Zero α] (numLayers capacity channels : UInt64) (cache : KVCache α) :
    make numLayers capacity channels = .ok cache ↔
      0 < numLayers.toNat ∧ 0 < capacity.toNat ∧ 0 < channels.toNat ∧
      8 * (numLayers.toNat * (capacity.toNat * channels.toNat)) < 2 ^ 64 ∧
      cache = { numLayers, capacity, channels, layerFloatCount := capacity * channels
                storageFloatCount := 2 * (numLayers * (capacity * channels))
                keys := List.replicate (numLayers.toNat * (capacity.toNat * channels.toNat)) 0
                values := List.replicate (numLayers.toNat * (capacity.toNat * channels.toNat)) 0 } := by
  have h2 : (2 : UInt64).toNat = 2 := rfl
  have h4 : (4 : UInt64).toNat = 4 := rfl
  unfold make
  rw [throwIf_bind_ok]
  simp only [bind_eq_ok, checkedMultiply_ok_iff, pure_ok, Except.ok.injEq, eq_zero_iff, not_or]
  constructor
  · rintro ⟨⟨hL, hK, hC⟩, layerFloatCount, hlayer, total, htotal, storage, hstorage, bytes, hbytes, rfl⟩
    rw [hlayer] at htotal
    rw [h2, htotal] at hstorage
    rw [h4, hstorage] at hbytes
    have hb := toNat_lt bytes
    have e1 : layerFloatCount = capacity * channels := by
      rw [← UInt64.toNat_inj, hlayer, toNat_mul_of_lt (by have := toNat_lt layerFloatCount; omega)]
    have e2 : total = numLayers * layerFloatCount := by
      rw [← UInt64.toNat_inj, htotal, toNat_mul_of_lt (by rw [hlayer]; omega), hlayer]
    have e3 : storage = 2 * total := by
      rw [← UInt64.toNat_inj, hstorage, toNat_mul_of_lt (by rw [htotal, h2]; omega), htotal, h2]
    refine ⟨by omega, by omega, by omega, by omega, ?_⟩
    rw [htotal, e3, e2, e1]
  · rintro ⟨hL, hK, hC, hfit, rfl⟩
    have hKC : capacity.toNat * channels.toNat ≤ numLayers.toNat * (capacity.toNat * channels.toNat) :=
      Nat.le_mul_of_pos_left _ hL
    have e1 : (capacity * channels).toNat = capacity.toNat * channels.toNat := toNat_mul_of_lt (by omega)
    have e2 : (numLayers * (capacity * channels)).toNat = numLayers.toNat * (capacity.toNat * channels.toNat) :=
      toNat_mul_eq rfl e1 (by omega)
    have e3 : (2 * (numLayers * (capacity * channels))).toNat =
        2 * (numLayers.toNat * (capacity.toNat * channels.toNat)) := toNat_mul_eq h2 e2 (by omega)
    have e4 : (2 * (numLayers * (capacity * channels)) * 4).toNat =
        2 * (numLayers.toNat * (capacity.toNat * channels.toNat)) * 4 := toNat_mul_eq e3 h4 (by omega)
    refine ⟨⟨by omega, by omega, by omega⟩, _, e1, _, by rw [e2, e1], _, by rw [e3, e2, h2], _, by rw [e4, e3, h4], ?_⟩
    rw [e2]

theorem make_wellFormed [Zero α] {numLayers capacity channels : UInt64} {cache : KVCache α}
    (h : make numLayers capacity channels = .ok cache) : cache.WellFormed := by
  obtain ⟨hL, hK, hC, hfit, rfl⟩ := (make_ok_iff numLayers capacity channels cache).1 h
  have hKC : capacity.toNat * channels.toNat ≤ numLayers.toNat * (capacity.toNat * channels.toNat) :=
    Nat.le_mul_of_pos_left _ hL
  exact ⟨hL, hK, hC, toNat_mul_of_lt (by omega), hfit, List.length_replicate, List.length_replicate⟩

/-! ## Rows -/

/-- Where row `(l, p)` starts. -/
def slot (cache : KVCache α) (l p : Nat) : Nat :=
  l * (cache.capacity.toNat * cache.channels.toNat) + p * cache.channels.toNat

variable {cache : KVCache α}

/-- A row lies inside the storage of its layer. -/
theorem slot_le {l p : Nat} (hl : l < cache.numLayers.toNat) (hp : p < cache.capacity.toNat) :
    cache.slot l p + cache.channels.toNat ≤ cache.numLayers.toNat * (cache.capacity.toNat * cache.channels.toNat) := by
  have h1 := row_end_le (C := cache.channels.toNat) hp
  have h2 := row_end_le (C := cache.capacity.toNat * cache.channels.toNat) hl
  unfold slot
  omega

/-- An entry of one row is outside every other row. -/
theorem slot_disjoint {l p l' p' c : Nat} (hp : p < cache.capacity.toNat) (hp' : p' < cache.capacity.toNat)
    (hne : (l', p') ≠ (l, p)) (hc : c < cache.channels.toNat) :
    cache.slot l' p' + c < cache.slot l p ∨ cache.slot l p + cache.channels.toNat ≤ cache.slot l' p' + c := by
  have h1 := row_end_le (C := cache.channels.toNat) hp
  have h2 := row_end_le (C := cache.channels.toNat) hp'
  unfold slot
  rcases Nat.lt_trichotomy l' l with hl | rfl | hl
  · have h3 := row_end_le (C := cache.capacity.toNat * cache.channels.toNat) hl
    exact .inl (by omega)
  · rcases Nat.lt_trichotomy p' p with hlt | rfl | hlt
    · have h3 := row_end_le (C := cache.channels.toNat) hlt
      exact .inl (by omega)
    · exact absurd rfl hne
    · have h3 := row_end_le (C := cache.channels.toNat) hlt
      exact .inr (by omega)
  · have h3 := row_end_le (C := cache.capacity.toNat * cache.channels.toNat) hl
    exact .inr (by omega)

namespace WellFormed

theorem layerOffset_ok (h : cache.WellFormed) {layer : UInt64} (hl : layer.toNat < cache.numLayers.toNat) :
    ∃ offset, cache.layerOffset layer = .ok offset ∧
      offset.toNat = layer.toNat * (cache.capacity.toNat * cache.channels.toNat) := by
  have hle := row_end_le (C := cache.capacity.toNat * cache.channels.toNat) hl
  have hfits := h.fits
  refine ⟨layer * cache.layerFloatCount, ?_, toNat_mul_eq rfl h.layerFloatCount (by omega)⟩
  rw [layerOffset, throwIf_of_not (by rw [le_iff]; omega)]
  rfl

theorem positionOffset_ok (h : cache.WellFormed) {layer position : UInt64} (hl : layer.toNat < cache.numLayers.toNat)
    (hp : position.toNat < cache.capacity.toNat) :
    ∃ offset, cache.positionOffset layer position = .ok offset ∧
      offset.toNat = cache.slot layer.toNat position.toNat := by
  obtain ⟨base, hbase, hn⟩ := h.layerOffset_ok hl
  have hle := slot_le hl hp
  have hfits := h.fits
  unfold slot at hle
  refine ⟨base + position * cache.channels, ?_, toNat_add_eq hn (toNat_mul_eq rfl rfl (by omega)) (by omega)⟩
  rw [positionOffset, throwIf_of_not (by rw [le_iff]; omega), ok_bind, hbase]
  rfl

/-- **A store writes one row of each array** and keeps everything else. -/
theorem store_ok (h : cache.WellFormed) {layer position : UInt64} {keyValues valueValues : List α} {k v : Nat → α}
    (hl : layer.toNat < cache.numLayers.toNat) (hp : position.toNat < cache.capacity.toNat)
    (hk : IsVec keyValues cache.channels.toNat k) (hv : IsVec valueValues cache.channels.toNat v) :
    ∃ keys values, cache.store layer position keyValues valueValues = .ok { cache with keys, values } ∧
      Fills cache.keys keys (cache.slot layer.toNat position.toNat) cache.channels.toNat k ∧
      Fills cache.values values (cache.slot layer.toNat position.toNat) cache.channels.toNat v := by
  obtain ⟨offset, hoff, hn⟩ := h.positionOffset_ok hl hp
  have hle := slot_le hl hp
  obtain ⟨keys, ek, hFk⟩ := copyInto_ok hn hk (by rw [h.keys]; exact hle)
  obtain ⟨values, ev, hFv⟩ := copyInto_ok hn hv (by rw [h.values]; exact hle)
  refine ⟨keys, values, ?_, hFk, hFv⟩
  have hlen : ¬(keyValues.length ≠ cache.channels.toNat ∨ valueValues.length ≠ cache.channels.toNat) := by
    rw [hk.1, hv.1]; simp
  simp only [store, throwIf_of_not hlen, hoff, ek, ev, keep_ok, ok_bind, pure_ok]

/-- What the readers of one row return. -/
theorem key_value_ok (h : cache.WellFormed) {layer position : UInt64} (hl : layer.toNat < cache.numLayers.toNat)
    (hp : position.toNat < cache.capacity.toNat) :
    cache.key layer position =
        .ok ((cache.keys.drop (cache.slot layer.toNat position.toNat)).take cache.channels.toNat) ∧
      cache.value layer position =
        .ok ((cache.values.drop (cache.slot layer.toNat position.toNat)).take cache.channels.toNat) := by
  obtain ⟨offset, hoff, hn⟩ := h.positionOffset_ok hl hp
  have hle := slot_le hl hp
  constructor
  · rw [key, hoff, ok_bind, subspan_ok (by rw [hn, h.keys]; exact hle), hn]
  · rw [value, hoff, ok_bind, subspan_ok (by rw [hn, h.values]; exact hle), hn]

/-- The two arrays may change as long as their lengths stay. -/
theorem withRows (h : cache.WellFormed) {keys values : List α} (hk : keys.length = cache.keys.length)
    (hv : values.length = cache.values.length) : ({ cache with keys, values } : KVCache α).WellFormed :=
  { h with keys := hk.trans h.keys, values := hv.trans h.values }

/-- The rows of a layer, entry by entry. -/
theorem layer_rows (h : cache.WellFormed) {layer : UInt64} (hl : layer.toNat < cache.numLayers.toNat) (d : α) :
    (∃ span, cache.layerKeys layer = .ok span ∧ IsMat span cache.capacity.toNat cache.channels.toNat
      fun p c => cache.keys.getD (cache.slot layer.toNat p + c) d) ∧
    ∃ span, cache.layerValues layer = .ok span ∧ IsMat span cache.capacity.toNat cache.channels.toNat
      fun p c => cache.values.getD (cache.slot layer.toNat p + c) d := by
  obtain ⟨offset, hoff, hn⟩ := h.layerOffset_ok hl
  have hle := row_end_le (C := cache.capacity.toNat * cache.channels.toNat) hl
  have slice : ∀ {storage : List α},
      storage.length = cache.numLayers.toNat * (cache.capacity.toNat * cache.channels.toNat) →
      ∃ span, subspan storage offset cache.layerFloatCount = .ok span ∧
        IsMat span cache.capacity.toNat cache.channels.toNat
          fun p c => storage.getD (cache.slot layer.toNat p + c) d := by
    intro storage hlen
    refine ⟨_, subspan_ok (by rw [hn, h.layerFloatCount, hlen]; exact hle), ?_⟩
    rw [hn, h.layerFloatCount]
    refine ((IsVec.of_length d hlen).slice hle).toMat.congr fun p _ c _ => ?_
    rw [slot, Nat.add_assoc]
  obtain ⟨keys, ek, mk⟩ := slice h.keys
  obtain ⟨values, ev, mv⟩ := slice h.values
  exact ⟨⟨keys, by simp only [layerKeys, hoff, ek, ok_bind], mk⟩, ⟨values, by simp only [layerValues, hoff, ev, ok_bind], mv⟩⟩

end WellFormed

end KVCache

end Gpt2Runtime
