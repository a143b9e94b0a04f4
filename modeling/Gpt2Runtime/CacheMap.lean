import Gpt2Runtime.CacheSpec
import Gpt2Runtime.Lib.Refine
import Gpt2Runtime.Lib.SlotMap
/-
# The cache is a map from (layer, position) to rows (`session.cpp:41-117`)

| here | there |
| --- | --- |
| `StoreCall`            | the arguments of one `store` |
| `KVCache.storeStep`    | a caller that makes the call of `store` (`session.cpp:89-99`) and goes on: whether it returned, and the cache it leaves |
| `mapStep`              | what the cache is for: a map updated at one key, or left alone |
| `KVCache.Represents`   | the two arrays hold the rows of the map |

One accepted store updates the map at one key (`store_accepted`), a rejected one leaves every entry
(`store_rejected`); `Refine.run_sim` carries both through a sequence of calls, and `run_mapStep` says
that the map then holds the last accepted rows.
-/

namespace Gpt2Runtime

open Loop Flat Word SlotMap

variable {α : Type}

structure StoreCall (α : Type) where
  layer : UInt64
  position : UInt64
  keyValues : List α
  valueValues : List α

/-- The calls a cache of `L` layers, `K` positions and `C` channels takes. -/
def StoreCall.Accepted (call : StoreCall α) (L K C : Nat) : Prop :=
  call.layer.toNat < L ∧ call.position.toNat < K ∧ call.keyValues.length = C ∧ call.valueValues.length = C

instance (call : StoreCall α) (L K C : Nat) : Decidable (call.Accepted L K C) :=
  inferInstanceAs (Decidable (_ ∧ _))

def KVCache.storeStep (cache : KVCache α) (call : StoreCall α) : Bool × KVCache α :=
  match cache.store call.layer call.position call.keyValues call.valueValues with
  | .ok cache' => (true, cache')
  | .error (_, cache') => (false, cache')

/-! ## The map -/

/-- The key row and the value row of each (layer, position). -/
abbrev RowMap (α : Type) := Nat × Nat → List α × List α

def zeroRows [Zero α] (C : Nat) : RowMap α := fun _ => (List.replicate C 0, List.replicate C 0)

def mapStep (L K C : Nat) (rows : RowMap α) (call : StoreCall α) : Bool × RowMap α :=
  if call.Accepted L K C then
    (true, Function.update rows (call.layer.toNat, call.position.toNat) (call.keyValues, call.valueValues))
  else (false, rows)

/-- The last accepted call at a key. -/
def lastAccepted (L K C : Nat) (calls : List (StoreCall α)) (key : Nat × Nat) : Option (StoreCall α) :=
  calls.reverse.find? fun call => call.Accepted L K C ∧ (call.layer.toNat, call.position.toNat) = key

/-- **The map holds the last accepted rows**, and those it started with elsewhere. -/
theorem run_mapStep {L K C : Nat} : ∀ {calls : List (StoreCall α)} {rows : RowMap α} {key : Nat × Nat},
    (Refine.run (mapStep L K C) rows calls).2 key =
      match lastAccepted L K C calls key with
      | some call => (call.keyValues, call.valueValues)
      | none => rows key
  | [], _, _ => rfl
  | call :: calls, rows, key => by
    have ih := @run_mapStep L K C calls (mapStep L K C rows call).2 key
    rw [Refine.run_cons, ih]
    unfold lastAccepted
    rw [List.reverse_cons, List.find?_append]
    cases calls.reverse.find? fun call => call.Accepted L K C ∧ (call.layer.toNat, call.position.toNat) = key with
    | some later => rfl
    | none =>
      by_cases hacc : call.Accepted L K C
      · by_cases hkey : (call.layer.toNat, call.position.toNat) = key
        · simp [mapStep, hacc, hkey]
        · simp [mapStep, hacc, hkey, Function.update_of_ne (Ne.symm hkey)]
      · simp [mapStep, hacc]

/-! ## The cache holds the map -/

namespace KVCache

/-- The rows of one of the two arrays. -/
def slots (cache : KVCache α) (hC : 0 < cache.channels.toNat) :
    Slots (Nat × Nat) (cache.numLayers.toNat * (cache.capacity.toNat * cache.channels.toNat)) where
  valid key := key.1 < cache.numLayers.toNat ∧ key.2 < cache.capacity.toNat
  base key := cache.slot key.1 key.2
  width := cache.channels.toNat
  base_le key h := slot_le h.1 h.2
  disjoint key key' h h' hne := by
    have h₁ := slot_disjoint h.2 h'.2 hne hC
    have h₂ := slot_disjoint h'.2 h.2 hne.symm hC
    omega

structure Represents (cache : KVCache α) (rows : RowMap α) : Prop where
  wf : cache.WellFormed
  keys : Stores (cache.slots wf.channels_pos) cache.keys (Prod.fst ∘ rows)
  values : Stores (cache.slots wf.channels_pos) cache.values (Prod.snd ∘ rows)

variable {cache : KVCache α} {rows : RowMap α} {call : StoreCall α}

theorem Represents.make [Zero α] {numLayers capacity channels : UInt64}
    (h : KVCache.make numLayers capacity channels = .ok cache) : cache.Represents (zeroRows channels.toNat) := by
  have hwf := make_wellFormed h
  obtain ⟨-, -, -, -, rfl⟩ := (make_ok_iff numLayers capacity channels cache).1 h
  have hzero : ∀ {w : Slots (Nat × Nat) (numLayers.toNat * (capacity.toNat * channels.toNat))},
      w.width = channels.toNat → Stores w (List.replicate (numLayers.toNat * (capacity.toNat * channels.toNat)) (0 : α))
        fun _ => List.replicate channels.toNat 0 := by
    intro w hw
    refine ⟨by simp, by simp [hw], ?_⟩
    intro key hkey c hc
    have hle := w.base_le key hkey
    rw [List.getElem?_replicate_of_lt (by omega), List.getElem?_replicate_of_lt (by omega)]
  exact ⟨hwf, hzero rfl, hzero rfl⟩

/-- **An accepted store** returns, and the cache holds the map updated at that key. -/
theorem Represents.store_accepted [Zero α] (h : cache.Represents rows)
    (hacc : call.Accepted cache.numLayers.toNat cache.capacity.toNat cache.channels.toNat) :
    ∃ keys values, cache.store call.layer call.position call.keyValues call.valueValues = .ok { cache with keys, values } ∧
      ({ cache with keys, values } : KVCache α).Represents
        (Function.update rows (call.layer.toNat, call.position.toNat) (call.keyValues, call.valueValues)) := by
  obtain ⟨hl, hp, hk, hv⟩ := hacc
  have hkvec := IsVec.of_length (0 : α) hk
  have hvvec := IsVec.of_length (0 : α) hv
  obtain ⟨keys, values, hstore, hFk, hFv⟩ := h.wf.store_ok hl hp hkvec hvvec
  have hwf := h.wf.withRows hFk.length hFv.length
  have hkey : (cache.slots h.wf.channels_pos).valid (call.layer.toNat, call.position.toNat) := ⟨hl, hp⟩
  refine ⟨keys, values, hstore, hwf, ?_, ?_⟩
  · rw [Function.comp_update]
    exact h.keys.update hkey hkvec hFk
  · rw [Function.comp_update]
    exact h.values.update hkey hvvec hFv

/-- **A rejected store** throws and leaves the cache alone. -/
theorem store_rejected
    (hrej : ¬call.Accepted cache.numLayers.toNat cache.capacity.toNat cache.channels.toNat) :
    ∃ e, cache.store call.layer call.position call.keyValues call.valueValues = .error (e, cache) ∧
      (e = .invalidArgument "KV cache write has the wrong channel count" ∨
        e = .outOfRange "KV cache position is out of range" ∨ e = .outOfRange "KV cache layer is out of range") := by
  by_cases hlen : call.keyValues.length ≠ cache.channels.toNat ∨ call.valueValues.length ≠ cache.channels.toNat
  · exact ⟨_, by rw [store, throwIf_of hlen]; rfl, .inl rfl⟩
  · obtain ⟨hk, hv⟩ : call.keyValues.length = cache.channels.toNat ∧ call.valueValues.length = cache.channels.toNat := by
      omega
    by_cases hp : cache.capacity ≤ call.position
    · refine ⟨_, ?_, .inr (.inl rfl)⟩
      rw [store, throwIf_of_not hlen, positionOffset, throwIf_of hp]
      rfl
    · refine ⟨_, ?_, .inr (.inr rfl)⟩
      have hl : cache.numLayers ≤ call.layer := by
        rw [le_iff] at hp ⊢
        by_contra hlt
        exact hrej ⟨by omega, by omega, hk, hv⟩
      rw [store, throwIf_of_not hlen, positionOffset, throwIf_of_not hp, layerOffset, throwIf_of hl]
      rfl

/-- A cache of the given dimensions that holds the map. -/
def RepresentsAt (numLayers capacity channels : UInt64) (cache : KVCache α) (rows : RowMap α) : Prop :=
  cache.Represents rows ∧ cache.numLayers = numLayers ∧ cache.capacity = capacity ∧ cache.channels = channels

/-- The step of the cache is the step of the map. -/
theorem RepresentsAt.storeStep [Zero α] {numLayers capacity channels : UInt64}
    (h : RepresentsAt numLayers capacity channels cache rows) (call : StoreCall α) :
    (cache.storeStep call).1 = (mapStep numLayers.toNat capacity.toNat channels.toNat rows call).1 ∧
      RepresentsAt numLayers capacity channels (cache.storeStep call).2
        (mapStep numLayers.toNat capacity.toNat channels.toNat rows call).2 := by
  obtain ⟨hrep, rfl, rfl, rfl⟩ := h
  by_cases hacc : call.Accepted cache.numLayers.toNat cache.capacity.toNat cache.channels.toNat
  · obtain ⟨keys, values, hstore, hrep'⟩ := hrep.store_accepted hacc
    simp only [KVCache.storeStep, mapStep, hstore, if_pos hacc]
    exact ⟨trivial, hrep', rfl, rfl, rfl⟩
  · obtain ⟨e, hstore, -⟩ := store_rejected hacc
    simp only [KVCache.storeStep, mapStep, hstore, if_neg hacc]
    exact ⟨trivial, hrep, rfl, rfl, rfl⟩

/-- **Any sequence of calls.** -/
theorem RepresentsAt.run [Zero α] {numLayers capacity channels : UInt64}
    (h : RepresentsAt numLayers capacity channels cache rows) (calls : List (StoreCall α)) :
    (Refine.run KVCache.storeStep cache calls).1 =
        (Refine.run (mapStep numLayers.toNat capacity.toNat channels.toNat) rows calls).1 ∧
      RepresentsAt numLayers capacity channels (Refine.run KVCache.storeStep cache calls).2
        (Refine.run (mapStep numLayers.toNat capacity.toNat channels.toNat) rows calls).2 := by
  refine Refine.run_sim (J := Eq) ?_ (List.forall₂_same.2 fun _ _ => rfl) h
  rintro cache rows call _ hrep rfl
  exact hrep.storeStep call

/-! ## Reading -/

/-- **No offset wraps or leaves the storage.** -/
theorem WellFormed.positionOffset_exact (h : cache.WellFormed) {layer position offset : UInt64}
    (hok : cache.positionOffset layer position = .ok offset) :
    layer.toNat < cache.numLayers.toNat ∧ position.toNat < cache.capacity.toNat ∧
      offset.toNat = (layer.toNat * cache.capacity.toNat + position.toNat) * cache.channels.toNat ∧
      offset.toNat + cache.channels.toNat ≤ cache.keys.length ∧
      offset.toNat + cache.channels.toNat ≤ cache.values.length := by
  obtain ⟨hp, hl⟩ : position.toNat < cache.capacity.toNat ∧ layer.toNat < cache.numLayers.toNat := by
    unfold positionOffset at hok
    rw [throwIf_bind_ok, bind_eq_ok] at hok
    obtain ⟨hp, _, hlayer, -⟩ := hok
    rw [layerOffset, throwIf_bind_ok] at hlayer
    obtain ⟨hl, -⟩ := hlayer
    rw [le_iff, not_le] at hp hl
    exact ⟨hp, hl⟩
  obtain ⟨offset', hok', hn⟩ := h.positionOffset_ok hl hp
  obtain rfl : offset' = offset := Except.ok.inj (hok'.symm.trans hok)
  have hle := slot_le hl hp
  rw [← hn] at hle
  refine ⟨hl, hp, ?_, by rw [h.keys]; exact hle, by rw [h.values]; exact hle⟩
  rw [hn, slot]
  ring

variable {layer position : UInt64}

theorem Represents.key_value (h : cache.Represents rows) (hl : layer.toNat < cache.numLayers.toNat)
    (hp : position.toNat < cache.capacity.toNat) :
    cache.key layer position = .ok (rows (layer.toNat, position.toNat)).1 ∧
      cache.value layer position = .ok (rows (layer.toNat, position.toNat)).2 := by
  have hvalid : (cache.slots h.wf.channels_pos).valid (layer.toNat, position.toNat) := ⟨hl, hp⟩
  obtain ⟨hkey, hvalue⟩ := h.wf.key_value_ok hl hp
  exact ⟨hkey.trans (congrArg Except.ok (h.keys.row hvalid)), hvalue.trans (congrArg Except.ok (h.values.row hvalid))⟩

/-- A layer is its rows one after the other. -/
theorem Represents.layer_keys_values (h : cache.Represents rows) (hl : layer.toNat < cache.numLayers.toNat) :
    cache.layerKeys layer = .ok ((List.range cache.capacity.toNat).flatMap fun p => (rows (layer.toNat, p)).1) ∧
      cache.layerValues layer =
        .ok ((List.range cache.capacity.toNat).flatMap fun p => (rows (layer.toNat, p)).2) := by
  obtain ⟨offset, hoff, hn⟩ := h.wf.layerOffset_ok hl
  have hle := row_end_le (C := cache.capacity.toNat * cache.channels.toNat) hl
  have hrows : ∀ p, p < cache.capacity.toNat → (cache.slots h.wf.channels_pos).valid (layer.toNat, p) ∧
      (cache.slots h.wf.channels_pos).base (layer.toNat, p) =
        layer.toNat * (cache.capacity.toNat * cache.channels.toNat) + p * cache.channels.toNat := by
    intro p hp
    exact ⟨⟨hl, hp⟩, rfl⟩
  have hk := h.keys.rows hrows
  have hv := h.values.rows hrows
  constructor
  · rw [layerKeys, hoff, ok_bind, subspan_ok (by rw [hn, h.wf.layerFloatCount, h.wf.keys]; exact hle), hn,
      h.wf.layerFloatCount]
    exact congrArg Except.ok hk
  · rw [layerValues, hoff, ok_bind, subspan_ok (by rw [hn, h.wf.layerFloatCount, h.wf.values]; exact hle), hn,
      h.wf.layerFloatCount]
    exact congrArg Except.ok hv

/-- What a map run reports: the accepted calls. -/
theorem run_mapStep_accepted {L K C : Nat} : ∀ {calls : List (StoreCall α)} {rows : RowMap α},
    (Refine.run (mapStep L K C) rows calls).1 = calls.map fun call => decide (call.Accepted L K C)
  | [], _ => rfl
  | call :: calls, rows => by
    rw [Refine.run_cons, run_mapStep_accepted, List.map_cons]
    by_cases hacc : call.Accepted L K C <;> simp [mapStep, hacc]

/-- The rows the cache holds at a key after some calls: those of the last accepted one, or zeros. -/
def lastRows [Zero α] (L K C : Nat) (calls : List (StoreCall α)) (l p : Nat) : List α × List α :=
  match lastAccepted L K C calls (l, p) with
  | some call => (call.keyValues, call.valueValues)
  | none => (List.replicate C 0, List.replicate C 0)

/-- **The cache is a map from (layer, position) to rows**: when it is constructed, which stores succeed,
that a rejected one changes nothing, what the four readers return, and that no offset wraps. -/
theorem stores_form_map [Zero α] (numLayers capacity channels : UInt64) :
    ((∃ cache : KVCache α, make numLayers capacity channels = .ok cache) ↔
      0 < numLayers.toNat ∧ 0 < capacity.toNat ∧ 0 < channels.toNat ∧
      8 * numLayers.toNat * capacity.toNat * channels.toNat ≤ 2 ^ 64 - 1) ∧
    ∀ (start : KVCache α) (calls : List (StoreCall α)), make numLayers capacity channels = .ok start →
      let cache := (Refine.run storeStep start calls).2
      let rows := lastRows numLayers.toNat capacity.toNat channels.toNat calls
      (Refine.run storeStep start calls).1 =
        calls.map (fun call => decide (call.Accepted numLayers.toNat capacity.toNat channels.toNat)) ∧
      (∀ (call : StoreCall α) e cache',
        cache.store call.layer call.position call.keyValues call.valueValues = .error (e, cache') →
        cache' = cache ∧ e ≠ .undefined) ∧
      (∀ l p : UInt64, l.toNat < numLayers.toNat → p.toNat < capacity.toNat →
        cache.key l p = .ok (rows l.toNat p.toNat).1 ∧ cache.value l p = .ok (rows l.toNat p.toNat).2) ∧
      (∀ l : UInt64, l.toNat < numLayers.toNat →
        cache.layerKeys l = .ok ((List.range capacity.toNat).flatMap fun p => (rows l.toNat p).1) ∧
        cache.layerValues l = .ok ((List.range capacity.toNat).flatMap fun p => (rows l.toNat p).2)) ∧
      ∀ l p offset, cache.positionOffset l p = .ok offset →
        l.toNat < numLayers.toNat ∧ p.toNat < capacity.toNat ∧
        offset.toNat = (l.toNat * capacity.toNat + p.toNat) * channels.toNat ∧
        offset.toNat + channels.toNat ≤ cache.keys.length ∧ offset.toNat + channels.toNat ≤ cache.values.length := by
  have hmul : 8 * numLayers.toNat * capacity.toNat * channels.toNat =
      8 * (numLayers.toNat * (capacity.toNat * channels.toNat)) := by ring
  constructor
  · simp only [make_ok_iff, exists_and_left, exists_eq, and_true, hmul]
    constructor
    · rintro ⟨hL, hK, hC, hfit⟩
      exact ⟨hL, hK, hC, by omega⟩
    · rintro ⟨hL, hK, hC, hfit⟩
      exact ⟨hL, hK, hC, by omega⟩
  · intro start calls hmake cache rows
    have hstart : RepresentsAt numLayers capacity channels start (zeroRows channels.toNat) := by
      have hrep := Represents.make hmake
      obtain ⟨-, -, -, -, rfl⟩ := (make_ok_iff numLayers capacity channels start).1 hmake
      exact ⟨hrep, rfl, rfl, rfl⟩
    obtain ⟨hout, hrep, hL, hK, hC⟩ := hstart.run calls
    have hrows : ∀ l p, (Refine.run (mapStep numLayers.toNat capacity.toNat channels.toNat)
        (zeroRows channels.toNat) calls).2 (l, p) = rows l p := by
      intro l p
      rw [run_mapStep]
      rfl
    refine ⟨hout.trans run_mapStep_accepted, ?_, ?_, ?_, ?_⟩
    · intro call e cache' herr
      by_cases hacc : call.Accepted cache.numLayers.toNat cache.capacity.toNat cache.channels.toNat
      · obtain ⟨keys, values, hstore, -⟩ := hrep.store_accepted hacc
        exact absurd (hstore.symm.trans herr) (by simp)
      · obtain ⟨e', hstore, he'⟩ := store_rejected hacc
        obtain ⟨rfl, rfl⟩ := Prod.mk.inj (Except.error.inj (hstore.symm.trans herr))
        refine ⟨rfl, ?_⟩
        rcases he' with rfl | rfl | rfl <;> simp
    · intro l p hl hp
      have := hrep.key_value (hL ▸ hl) (hK ▸ hp)
      rwa [hrows] at this
    · intro l hl
      have := hrep.layer_keys_values (hL ▸ hl)
      simp only [hrows, hK] at this
      exact this
    · intro l p offset hoff
      have := hrep.wf.positionOffset_exact hoff
      rwa [hL, hK, hC] at this

end KVCache

end Gpt2Runtime
