import Gpt2Runtime.Checkpoint
/-
# What the loader accepts

`loadCheckpoint_ok_iff`: the accepted byte strings are a header with positive, compatible
dimensions followed by exactly the parameters of that configuration; the loaded model then carries
the header fields and the payload words. `tensor_ok` reads the sixteen tensors back.
-/

namespace Gpt2Runtime

open Loop Word LittleEndian ParameterLayout

/-! ## Header fields -/

theorem toNat_castSize {x : Int32} (h : 0 ≤ x.toInt) : (castSize x).toNat = x.toInt.toNat := by
  have hlt : x.toInt < 2 ^ 31 := Int32.toInt_lt x
  rw [castSize, Int.emod_eq_of_lt h (by omega)]
  exact toNat_ofNat_of_lt (by omega)

theorem castSize_lt {x : Int32} (h : 0 ≤ x.toInt) : (castSize x).toNat < 2 ^ 31 := by
  have hlt : x.toInt < 2 ^ 31 := Int32.toInt_lt x
  rw [toNat_castSize h]; omega

theorem not_le_zero_iff {x : Int32} : ¬x ≤ 0 ↔ 0 < x.toInt := by
  rw [Int32.le_iff_toInt_le, Int32.toInt_zero]; omega

theorem positiveDimension_ok_iff {bytes : List UInt8} {index : Nat} {name : String} {d : UInt64} :
    positiveDimension bytes index name = .ok d ↔ 0 < (header bytes index).toInt ∧ d = castSize (header bytes index) := by
  unfold positiveDimension
  rw [throwIf_bind_ok, not_le_zero_iff, pure_ok, Except.ok.injEq]
  exact and_congr_right fun _ => eq_comm

/-- The configuration a header describes. -/
def headerConfig (bytes : List UInt8) : ModelConfig where
  maxSequenceLength := castSize (header bytes 2)
  vocabularySize := castSize (header bytes 3)
  paddedVocabularySize := castSize (if header bytes 1 = 1 then header bytes 3 else header bytes 7)
  numLayers := castSize (header bytes 4)
  numHeads := castSize (header bytes 5)
  channels := castSize (header bytes 6)

/-- The conditions on the dimension words. -/
structure HeaderValid (bytes : List UInt8) : Prop where
  positive : ∀ i, 2 ≤ i → i ≤ 6 → 0 < (header bytes i).toInt
  heads_dvd : (header bytes 5).toInt ∣ (header bytes 6).toInt
  padded : header bytes 1 ≠ 1 → 0 < (header bytes 7).toInt ∧ (header bytes 3).toInt ≤ (header bytes 7).toInt

theorem HeaderValid.config_valid {bytes : List UInt8} (h : HeaderValid bytes) : (headerConfig bytes).Valid := by
  have hp : ∀ i, 2 ≤ i → i ≤ 6 → (castSize (header bytes i)).toNat = (header bytes i).toInt.toNat ∧
      0 < (header bytes i).toInt.toNat := by
    intro i h2 h6
    have := h.positive i h2 h6
    exact ⟨toNat_castSize (by omega), by omega⟩
  obtain ⟨e2, p2⟩ := hp 2 (by omega) (by omega)
  obtain ⟨e3, p3⟩ := hp 3 (by omega) (by omega)
  obtain ⟨e4, p4⟩ := hp 4 (by omega) (by omega)
  obtain ⟨e5, p5⟩ := hp 5 (by omega) (by omega)
  obtain ⟨e6, p6⟩ := hp 6 (by omega) (by omega)
  refine ⟨by simpa [headerConfig, e2] using p2, by simpa [headerConfig, e3] using p3, by simpa [headerConfig, e4] using p4,
    by simpa [headerConfig, e5] using p5, by simpa [headerConfig, e6] using p6, ?_, ?_⟩
  · simp only [headerConfig, e5, e6]
    have := h.heads_dvd
    rw [← Int.natCast_dvd_natCast]
    rwa [Int.toNat_of_nonneg (by omega), Int.toNat_of_nonneg (by omega)]
  · by_cases h1 : header bytes 1 = 1
    · simp [headerConfig, h1]
    · obtain ⟨h7, h37⟩ := h.padded h1
      simp only [headerConfig, h1, if_false, e3, toNat_castSize (Int.le_of_lt h7)]
      omega

theorem headerConfig_valid_iff {bytes : List UInt8} (hp : ∀ i, 2 ≤ i → i ≤ 6 → 0 < (header bytes i).toInt)
    (h7 : header bytes 1 ≠ 1 → 0 < (header bytes 7).toInt) : (headerConfig bytes).Valid ↔ HeaderValid bytes := by
  refine ⟨fun hv => ⟨hp, ?_, fun h1 => ⟨h7 h1, ?_⟩⟩, HeaderValid.config_valid⟩
  · have h5 := hp 5 (by omega) (by omega)
    have h6 := hp 6 (by omega) (by omega)
    have := hv.heads_dvd
    simp only [headerConfig, toNat_castSize (Int.le_of_lt h5), toNat_castSize (Int.le_of_lt h6)] at this
    rw [← Int.natCast_dvd_natCast] at this
    rwa [Int.toNat_of_nonneg (by omega), Int.toNat_of_nonneg (by omega)] at this
  · have h3 := hp 3 (by omega) (by omega)
    have := hv.padded_ge
    simp only [headerConfig, h1, if_false, toNat_castSize (Int.le_of_lt h3), toNat_castSize (Int.le_of_lt (h7 h1))] at this
    omega

theorem paddedVocabularySize_ok_iff {bytes : List UInt8} {d : UInt64} :
    paddedVocabularySize bytes (castSize (header bytes 3)) = .ok d ↔
      (header bytes 1 ≠ 1 → 0 < (header bytes 7).toInt) ∧ d = (headerConfig bytes).paddedVocabularySize := by
  unfold paddedVocabularySize
  by_cases h1 : header bytes 1 = 1
  · simp [h1, headerConfig, eq_comm]
  · simp [h1, headerConfig, positiveDimension_ok_iff]

theorem readConfig_ok_iff {bytes : List UInt8} {config : ModelConfig} :
    readConfig bytes = .ok config ↔ HeaderValid bytes ∧ config = headerConfig bytes := by
  unfold readConfig
  simp only [bind_eq_ok, positiveDimension_ok_iff, pure_ok, Except.ok.injEq]
  constructor
  · rintro ⟨_, ⟨h2, rfl⟩, _, ⟨h3, rfl⟩, _, ⟨h4, rfl⟩, _, ⟨h5, rfl⟩, _, ⟨h6, rfl⟩, _, hpad, u, hval, rfl⟩
    obtain ⟨h7, rfl⟩ := paddedVocabularySize_ok_iff.1 hpad
    have hp : ∀ i, 2 ≤ i → i ≤ 6 → 0 < (header bytes i).toInt := by
      intro i hi hi'
      obtain rfl | rfl | rfl | rfl | rfl : i = 2 ∨ i = 3 ∨ i = 4 ∨ i = 5 ∨ i = 6 := by omega
      all_goals assumption
    exact ⟨(headerConfig_valid_iff hp h7).1 ((ModelConfig.validate_ok_iff _).1 hval), rfl⟩
  · rintro ⟨hv, rfl⟩
    exact ⟨_, ⟨hv.positive 2 (by omega) (by omega), rfl⟩, _, ⟨hv.positive 3 (by omega) (by omega), rfl⟩,
      _, ⟨hv.positive 4 (by omega) (by omega), rfl⟩, _, ⟨hv.positive 5 (by omega) (by omega), rfl⟩,
      _, ⟨hv.positive 6 (by omega) (by omega), rfl⟩, _,
      paddedVocabularySize_ok_iff.2 ⟨fun h1 => (hv.padded h1).1, rfl⟩, (),
      (ModelConfig.validate_ok_iff _).2 hv.config_valid, rfl⟩

/-! ## Acceptance -/

variable {α : Type} [Scalar α]

/-- The model a valid file describes. -/
def fileModel (bytes : List UInt8) : ModelWeights α where
  config := headerConfig bytes
  checkpointVersion := header bytes 1
  layout := layoutOf (headerConfig bytes)
  storage := ModelWeights.readPayload bytes (parameterCount (headerConfig bytes))

/-- The accepted byte strings. -/
structure FileValid (bytes : List UInt8) : Prop where
  magic : header bytes 0 = 20240326
  version : header bytes 1 = 1 ∨ header bytes 1 = 3
  dims : HeaderValid bytes
  size : bytes.length = 1024 + 4 * parameterCount (headerConfig bytes)

theorem length_readPayload (bytes : List UInt8) (n : Nat) : (ModelWeights.readPayload bytes n : List α).length = n := by
  simp [ModelWeights.readPayload]

/-- **The loader accepts exactly the format.** -/
theorem loadCheckpoint_ok_iff (file : CheckpointFile) (weights : ModelWeights α) :
    ModelWeights.loadCheckpoint file = .ok weights ↔ FileValid file.bytes ∧ weights = fileModel file.bytes := by
  have hsize := file.size_lt
  unfold ModelWeights.loadCheckpoint
  generalize file.bytes = bytes at hsize
  simp only [bind_eq_ok, throwIf_ok_iff, exists_const, readConfig_ok_iff, make_ok_iff, checkedMultiply_ok_iff,
    checkedAdd_ok_iff, ModelWeights.make, pure_ok, Except.ok.injEq]
  have h1024 : (1024 : UInt64).toNat = 1024 := rfl
  have h4 : (4 : UInt64).toNat = 4 := rfl
  constructor
  · rintro ⟨hlen, hmagic, hver, _, ⟨hdims, rfl⟩, _, ⟨-, hN, rfl⟩, payload, hp, expected, he, hle, hge, -, -, rfl⟩
    have htotal : (layoutOf (headerConfig bytes)).totalCount.toNat = parameterCount (headerConfig bytes) :=
      toNat_ofNat_of_lt hN
    rw [htotal]
    refine ⟨⟨not_not.1 hmagic, ?_, hdims, ?_⟩, rfl⟩
    · by_cases h1 : header bytes 1 = 1
      · exact .inl h1
      · exact .inr (not_not.1 fun h3 => hver ⟨h1, h3⟩)
    · rw [htotal, h4] at hp
      rw [h1024] at he
      omega
  · rintro ⟨⟨hmagic, hver, hdims, hlen⟩, rfl⟩
    have hN : parameterCount (headerConfig bytes) < 2 ^ 64 := by omega
    have htotal : (layoutOf (headerConfig bytes)).totalCount.toNat = parameterCount (headerConfig bytes) :=
      toNat_ofNat_of_lt hN
    have hp : (UInt64.ofNat (parameterCount (headerConfig bytes) * 4)).toNat = parameterCount (headerConfig bytes) * 4 :=
      toNat_ofNat_of_lt (by omega)
    have he : (UInt64.ofNat (1024 + parameterCount (headerConfig bytes) * 4)).toNat =
      1024 + parameterCount (headerConfig bytes) * 4 := toNat_ofNat_of_lt (by omega)
    refine ⟨by omega, not_not.2 hmagic, by rintro ⟨h1, h3⟩; exact hver.elim h1 h3, _, ⟨hdims, rfl⟩, _,
      ⟨hdims.config_valid, hN, rfl⟩, _, by rw [hp, htotal, h4], _, by rw [he, hp, h1024], ?_, ?_, ?_, ?_, ?_⟩
    · rw [he]; omega
    · rw [he]; omega
    · rw [hp]; omega
    · rw [htotal]; exact not_not.2 (length_readPayload bytes _)
    · rw [htotal]; rfl

/-! ## Reading the tensors back -/

/-- The sixteen tensors and their shapes, over the natural numbers. -/
def tensorShapes (T Vp L C : Nat) : List (String × List Nat) :=
  [("wte", [Vp, C]), ("wpe", [T, C]), ("ln1w", [L, C]), ("ln1b", [L, C]), ("qkvw", [L, 3 * C, C]), ("qkvb", [L, 3 * C]),
   ("attprojw", [L, C, C]), ("attprojb", [L, C]), ("ln2w", [L, C]), ("ln2b", [L, C]), ("fcw", [L, 4 * C, C]),
   ("fcb", [L, 4 * C]), ("fcprojw", [L, C, 4 * C]), ("fcprojb", [L, C]), ("lnfw", [C]), ("lnfb", [C])]

/-- The number of parameters of a list of tensors. -/
def shapeEntries (shapes : List (String × List Nat)) : Nat := (shapes.map fun s => s.2.prod).sum

/-- The shapes of a configuration. -/
def ModelConfig.shapes (config : ModelConfig) : List (String × List Nat) :=
  tensorShapes config.maxSequenceLength.toNat config.paddedVocabularySize.toNat config.numLayers.toNat
    config.channels.toNat

theorem shapeEntries_shapes (config : ModelConfig) : shapeEntries config.shapes = parameterCount config := by
  simp only [shapeEntries, ModelConfig.shapes, tensorShapes, parameterCount, List.map_cons, List.map_nil,
    List.prod_cons, List.prod_nil, List.sum_cons, List.sum_nil]
  ring

theorem map_tensorDimensions {config : ModelConfig} {c3 c4 : UInt64} (h3 : c3.toNat = 3 * config.channels.toNat)
    (h4 : c4.toNat = 4 * config.channels.toNat) :
    (tensorDimensions config c3 c4).map (fun t => (t.1, t.2.map UInt64.toNat)) = config.shapes := by
  simp [tensorDimensions, ModelConfig.shapes, tensorShapes, h3, h4]

/-- The dimensions of a configuration whose parameters fit do not wrap. -/
theorem tensorDimensions_shapes {config : ModelConfig} (hv : config.Valid) (hN : parameterCount config < 2 ^ 64) :
    (tensorDimensions config (3 * config.channels) (4 * config.channels)).map (fun t => (t.1, t.2.map UInt64.toNat)) =
      config.shapes := by
  have hle := channels_le_parameterCount hv
  exact map_tensorDimensions (toNat_mul_eq rfl rfl (by omega)) (toNat_mul_eq rfl rfl (by omega))

/-- A model whose configuration is valid and whose storage has the size of its layout; every loaded
model is one. -/
structure ModelWeights.WellFormed (weights : ModelWeights α) : Prop where
  valid : weights.config.Valid
  layout : weights.layout = layoutOf weights.config
  size : weights.storage.length = parameterCount weights.config
  fits : 4 * parameterCount weights.config + 1024 < 2 ^ 63
  vocabulary_lt : weights.config.paddedVocabularySize.toNat < 2 ^ 31
  length_lt : weights.config.maxSequenceLength.toNat < 2 ^ 31

theorem FileValid.wellFormed {file : CheckpointFile} (h : FileValid file.bytes) :
    (fileModel file.bytes : ModelWeights α).WellFormed := by
  have hlt := file.size_lt
  have hsize := h.size
  refine ⟨h.dims.config_valid, rfl, length_readPayload _ _, ?_, ?_, ?_⟩
  · show 4 * parameterCount (headerConfig file.bytes) + 1024 < 2 ^ 63; omega
  · simp only [fileModel, headerConfig]
    by_cases h1 : header file.bytes 1 = 1
    · simpa [h1] using castSize_lt (Int.le_of_lt (h.dims.positive 3 (by omega) (by omega)))
    · simpa [h1] using castSize_lt (Int.le_of_lt (h.dims.padded h1).1)
  · exact castSize_lt (Int.le_of_lt (h.dims.positive 2 (by omega) (by omega)))

theorem TensorView.make_ok {α : Type} {values : List α} {shape : List UInt64} {rank : Nat} {count : UInt64} (hrank : rank ≠ 0)
    (hle : rank ≤ shape.length) (hprod : product (shape.take rank) "tensor view shape" = .ok count)
    (hcount : count.toNat = values.length) : TensorView.make values shape rank = .ok ⟨values, shape, rank⟩ := by
  unfold TensorView.make
  rw [throwIf_of_not (by omega), ok_bind, hprod, ok_bind, throwIf_of_not (by omega)]
  rfl

theorem rank_ne_zero {config : ModelConfig} {c3 c4 : UInt64} {t : String × List UInt64}
    (h : t ∈ tensorDimensions config c3 c4) : t.2.length ≠ 0 := by
  simp only [tensorDimensions, List.mem_cons, List.not_mem_nil, or_false] at h
  rcases h with rfl | rfl | rfl | rfl | rfl | rfl | rfl | rfl | rfl | rfl | rfl | rfl | rfl | rfl | rfl | rfl <;> simp

theorem specAt_toNat {offset : Nat} {name : String} {dimensions : List UInt64} (ho : offset < 2 ^ 64)
    (hc : entryCount dimensions < 2 ^ 64) :
    (specAt offset name dimensions).offset.toNat = offset ∧
      (specAt offset name dimensions).count.toNat = entryCount dimensions :=
  ⟨toNat_ofNat_of_lt ho, toNat_ofNat_of_lt hc⟩

omit [Scalar α] in
/-- `tensor(name)` is the slice of the storage after the preceding tensors, with the declared shape. -/
theorem ModelWeights.WellFormed.tensor_ok {weights : ModelWeights α} (h : weights.WellFormed)
    {pre post : List (String × List Nat)} {name : String} {dims : List Nat}
    (hs : weights.config.shapes = pre ++ (name, dims) :: post) :
    ∃ view, weights.tensor name = .ok view ∧
      view.values = (weights.storage.drop (shapeEntries pre)).take dims.prod ∧
      view.values.length = dims.prod ∧ (view.shape.take view.rank).map UInt64.toNat = dims ∧
      shapeEntries pre + dims.prod ≤ weights.storage.length := by
  have hfits := h.fits
  have hsize := h.size
  have hN : parameterCount weights.config < 2 ^ 64 := by omega
  have hmap := tensorDimensions_shapes h.valid hN
  rw [hs] at hmap
  obtain ⟨pre', rest, hsplit, rfl, hrest⟩ := List.map_eq_append_iff.1 hmap
  obtain ⟨⟨name', dims'⟩, post', rfl, heq, rfl⟩ := List.map_eq_cons_iff.1 hrest
  simp only [Prod.mk.injEq] at heq
  obtain ⟨rfl, rfl⟩ := heq
  have hpre : shapeEntries (pre'.map fun t => (t.1, t.2.map UInt64.toNat)) = totalEntries pre' := by
    simp [shapeEntries, totalEntries, entryCount, Function.comp_def]
  rw [hpre, show (dims'.map UInt64.toNat).prod = entryCount dims' from rfl]
  -- the slice ends inside the storage
  have hC := h.valid.channels
  have hCle := channels_le_parameterCount h.valid
  have h3 : (3 * weights.config.channels).toNat = 3 * weights.config.channels.toNat := toNat_mul_eq rfl rfl (by omega)
  have h4 : (4 * weights.config.channels).toNat = 4 * weights.config.channels.toNat := toNat_mul_eq rfl rfl (by omega)
  have hle : totalEntries pre' + entryCount dims' ≤ parameterCount weights.config := by
    rw [← totalEntries_tensorDimensions h3 h4, hsplit, totalEntries_append, totalEntries_cons]
    exact Nat.add_le_add_left (Nat.le_add_right _ _) _
  obtain ⟨hlen, hpos⟩ := fits_tensorDimensions h.valid _ _ (by rw [h3]; omega) (by rw [h4]; omega) (name', dims')
    (by rw [hsplit]; simp)
  obtain ⟨ho, hc⟩ : (specAt (totalEntries pre') name' dims').offset.toNat = totalEntries pre' ∧
      (specAt (totalEntries pre') name' dims').count.toNat = entryCount dims' := specAt_toNat (by omega) (by omega)
  have hsub : subspan weights.storage (specAt (totalEntries pre') name' dims').offset
      (specAt (totalEntries pre') name' dims').count = .ok _ := subspan_ok (by rw [ho, hc]; omega)
  obtain ⟨r, hprod, hr⟩ := product_ok "tensor view shape" hpos (show entryCount dims' < 2 ^ 64 by omega)
  have hvals : ((weights.storage.drop (totalEntries pre')).take (entryCount dims')).length = entryCount dims' := by
    rw [List.length_take, List.length_drop]; omega
  have hrank : dims'.length ≠ 0 := by
    have hmem : (name', dims') ∈ tensorDimensions weights.config (3 * weights.config.channels)
      (4 * weights.config.channels) := by rw [hsplit]; simp
    exact rank_ne_zero hmem
  have hshape : (dims' ++ List.replicate (4 - dims'.length) (0 : UInt64)).take dims'.length = dims' := by simp
  refine ⟨⟨(weights.storage.drop (totalEntries pre')).take (entryCount dims'),
    dims' ++ List.replicate (4 - dims'.length) 0, dims'.length⟩, ?_, rfl, hvals, by simp only [hshape], by omega⟩
  simp only [ModelWeights.tensor, h.layout, layoutOf_at? hsplit, ok_bind, hsub, ho, hc]
  refine TensorView.make_ok hrank (by simp [specAt]) ?_ (hr.trans hvals.symm)
  simpa only [specAt, hshape] using hprod

theorem getElem?_readPayload (bytes : List UInt8) {n i : Nat} (hi : i < n) :
    (ModelWeights.readPayload bytes n : List α)[i]? = some (Scalar.ofBits (wordAt bytes (1024 + 4 * i))) := by
  simp [ModelWeights.readPayload, hi]

omit [Scalar α] in
theorem TensorView.get_ok {view : TensorView α} {i : Nat} {x : α} (hi : i < 2 ^ 64) (h : view.values[i]? = some x) :
    view.get (UInt64.ofNat i) = .ok x := by
  simp [TensorView.get, toNat_ofNat_of_lt hi, h]

/-- Entry `i` of a tensor of a loaded model is the payload word at the tensor's offset plus `i`. -/
theorem FileValid.tensor_words {file : CheckpointFile} (h : FileValid file.bytes) {pre post : List (String × List Nat)}
    {name : String} {dims : List Nat} (hs : (headerConfig file.bytes).shapes = pre ++ (name, dims) :: post) :
    ∃ view, (fileModel file.bytes : ModelWeights α).tensor name = .ok view ∧ view.values.length = dims.prod ∧
      (view.shape.take view.rank).map UInt64.toNat = dims ∧
      ∀ i, i < dims.prod → view.get (UInt64.ofNat i) =
        .ok (Scalar.ofBits (wordAt file.bytes (1024 + 4 * (shapeEntries pre + i)))) := by
  have hw : (fileModel file.bytes : ModelWeights α).WellFormed := h.wellFormed
  obtain ⟨view, hview, hvals, hlen, hshape, hle⟩ := hw.tensor_ok hs
  have hfits := hw.fits
  rw [hw.size] at hle
  refine ⟨view, hview, hlen, hshape, fun i hi => TensorView.get_ok (by omega) ?_⟩
  rw [hvals, List.getElem?_take_of_lt hi, List.getElem?_drop]
  exact getElem?_readPayload _ (Nat.lt_of_lt_of_le (Nat.add_lt_add_left hi _) hle)

/-! ## What the loader does not read -/

/-- Two byte strings that agree on the words the loader looks at. -/
structure SameWords (bytes bytes' : List UInt8) : Prop where
  length : bytes.length = bytes'.length
  fields : ∀ i, i < 7 → header bytes i = header bytes' i
  padded : header bytes 1 ≠ 1 → header bytes 7 = header bytes' 7
  payload : ∀ i, wordAt bytes (1024 + 4 * i) = wordAt bytes' (1024 + 4 * i)

theorem SameWords.loadCheckpoint_eq {file file' : CheckpointFile} (h : SameWords file.bytes file'.bytes) :
    (ModelWeights.loadCheckpoint file : Except Exc (ModelWeights α)) = ModelWeights.loadCheckpoint file' := by
  have hpad : ∀ v, paddedVocabularySize file.bytes v = paddedVocabularySize file'.bytes v := by
    intro v
    unfold paddedVocabularySize positiveDimension
    rw [← h.fields 1 (by omega)]
    by_cases h1 : header file.bytes 1 = 1
    · simp only [h1, if_true]
    · rw [← h.padded h1]
  have hconfig : readConfig file.bytes = readConfig file'.bytes := by
    simp only [readConfig, positiveDimension, hpad, h.fields 2 (by omega), h.fields 3 (by omega), h.fields 4 (by omega),
      h.fields 5 (by omega), h.fields 6 (by omega)]
  have hpayload : ∀ n, (ModelWeights.readPayload file.bytes n : List α) = ModelWeights.readPayload file'.bytes n := by
    intro n
    simp only [ModelWeights.readPayload, h.payload]
  simp only [ModelWeights.loadCheckpoint, hconfig, hpayload, h.length, h.fields 0 (by omega), h.fields 1 (by omega)]

/-! ## Loading what was written -/

theorem toInt_word {n : Nat} (h : n < 2 ^ 31) : (Int32.ofBitVec (BitVec.ofNat 32 n)).toInt = n := by
  rw [Int32.toInt_ofBitVec, BitVec.toInt_eq_toNat_of_lt (by rw [BitVec.toNat_ofNat]; omega), BitVec.toNat_ofNat]
  omega

theorem castSize_word {x : UInt64} (h : x.toNat < 2 ^ 31) : castSize (Int32.ofBitVec (BitVec.ofNat 32 x.toNat)) = x := by
  rw [← UInt64.toNat_inj, toNat_castSize (by rw [toInt_word h]; omega), toInt_word h, Int.toNat_natCast]

/-- A version and a configuration a header can carry. -/
structure ModelConfig.Writable (config : ModelConfig) (version : Int32) : Prop where
  valid : config.Valid
  supported : version = 1 ∨ version = 3
  unpadded : version = 1 → config.paddedVocabularySize = config.vocabularySize
  maxSequenceLength_lt : config.maxSequenceLength.toNat < 2 ^ 31
  paddedVocabularySize_lt : config.paddedVocabularySize.toNat < 2 ^ 31
  numLayers_lt : config.numLayers.toNat < 2 ^ 31
  numHeads_lt : config.numHeads.toNat < 2 ^ 31
  channels_lt : config.channels.toNat < 2 ^ 31

theorem length_checkpointHeader (version : Int32) (config : ModelConfig) :
    (checkpointHeader version config).length = 256 := by
  rw [checkpointHeader, List.length_append, List.length_replicate]
  rfl

theorem header_writeCheckpoint (version : Int32) (config : ModelConfig) (payload : List (BitVec 32)) {i : Nat}
    {w : BitVec 32} (h : (checkpointHeader version config)[i]? = some w) :
    header (writeCheckpoint version config payload) i = Int32.ofBitVec w := by
  obtain ⟨hi, rfl⟩ := List.getElem?_eq_some_iff.1 h
  have hlt : i < (checkpointHeader version config ++ payload).length := by rw [List.length_append]; omega
  have := wordAt_encodeWords hlt []
  rw [List.append_nil, List.getElem_append_left hi] at this
  rw [header, writeCheckpoint, this]

theorem length_writeCheckpoint (version : Int32) (config : ModelConfig) (payload : List (BitVec 32)) :
    (writeCheckpoint version config payload).length = 1024 + 4 * payload.length := by
  rw [writeCheckpoint, length_encodeWords, List.length_append, length_checkpointHeader]
  omega

theorem wordAt_writeCheckpoint (version : Int32) (config : ModelConfig) {payload : List (BitVec 32)} {i : Nat}
    (hi : i < payload.length) : wordAt (writeCheckpoint version config payload) (1024 + 4 * i) = payload[i] := by
  have hlen := length_checkpointHeader version config
  have hlt : 256 + i < (checkpointHeader version config ++ payload).length := by
    rw [List.length_append, hlen]; omega
  have := wordAt_encodeWords hlt []
  rw [List.append_nil, List.getElem_append_right (by rw [hlen]; omega)] at this
  rw [show 1024 + 4 * i = 4 * (256 + i) by omega, writeCheckpoint, this]
  simp only [hlen, Nat.add_sub_cancel_left]

theorem headerConfig_writeCheckpoint {version : Int32} {config : ModelConfig} (h : config.Writable version)
    (payload : List (BitVec 32)) : headerConfig (writeCheckpoint version config payload) = config := by
  have hw := fun {i : Nat} {w : BitVec 32} => header_writeCheckpoint version config payload (i := i) (w := w)
  have hV : config.vocabularySize.toNat < 2 ^ 31 := Nat.lt_of_le_of_lt h.valid.padded_ge h.paddedVocabularySize_lt
  have h1 : header (writeCheckpoint version config payload) 1 = version := (hw rfl).trans (Int32.ofBitVec_toBitVec _)
  have hpad : castSize (if header (writeCheckpoint version config payload) 1 = 1 then
      header (writeCheckpoint version config payload) 3 else header (writeCheckpoint version config payload) 7) =
      config.paddedVocabularySize := by
    rw [h1]
    by_cases hv : version = 1
    · rw [if_pos hv, hw (i := 3) rfl, h.unpadded hv, castSize_word hV]
    · rw [if_neg hv, hw (i := 7) rfl, castSize_word h.paddedVocabularySize_lt]
  unfold headerConfig
  rw [hpad, hw (i := 2) rfl, hw (i := 3) rfl, hw (i := 4) rfl, hw (i := 5) rfl, hw (i := 6) rfl,
    castSize_word h.maxSequenceLength_lt, castSize_word hV, castSize_word h.numLayers_lt, castSize_word h.numHeads_lt,
    castSize_word h.channels_lt]

theorem headerValid_writeCheckpoint {version : Int32} {config : ModelConfig} (h : config.Writable version)
    (payload : List (BitVec 32)) : HeaderValid (writeCheckpoint version config payload) := by
  have hw := fun {i : Nat} {w : BitVec 32} => header_writeCheckpoint version config payload (i := i) (w := w)
  have hv := h.valid
  have hV : config.vocabularySize.toNat < 2 ^ 31 := Nat.lt_of_le_of_lt hv.padded_ge h.paddedVocabularySize_lt
  refine (headerConfig_valid_iff ?_ ?_).1 (by rw [headerConfig_writeCheckpoint h]; exact hv)
  · intro i h2 h6
    obtain rfl | rfl | rfl | rfl | rfl : i = 2 ∨ i = 3 ∨ i = 4 ∨ i = 5 ∨ i = 6 := by omega
    · rw [hw (i := 2) rfl, toInt_word h.maxSequenceLength_lt]; exact Int.natCast_pos.2 hv.maxSequenceLength
    · rw [hw (i := 3) rfl, toInt_word hV]; exact Int.natCast_pos.2 hv.vocabularySize
    · rw [hw (i := 4) rfl, toInt_word h.numLayers_lt]; exact Int.natCast_pos.2 hv.numLayers
    · rw [hw (i := 5) rfl, toInt_word h.numHeads_lt]; exact Int.natCast_pos.2 hv.numHeads
    · rw [hw (i := 6) rfl, toInt_word h.channels_lt]; exact Int.natCast_pos.2 hv.channels
  · intro _
    rw [hw (i := 7) rfl, toInt_word h.paddedVocabularySize_lt]
    exact Int.natCast_pos.2 (Nat.lt_of_lt_of_le hv.vocabularySize hv.padded_ge)

theorem fileValid_writeCheckpoint {version : Int32} {config : ModelConfig} (h : config.Writable version)
    {payload : List (BitVec 32)} (hlen : payload.length = parameterCount config) :
    FileValid (writeCheckpoint version config payload) where
  magic := (header_writeCheckpoint version config payload (i := 0) rfl).trans (Int32.ofBitVec_toBitVec _)
  version := by
    rw [(header_writeCheckpoint version config payload (i := 1) rfl).trans (Int32.ofBitVec_toBitVec _)]
    exact h.supported
  dims := headerValid_writeCheckpoint h payload
  size := by rw [headerConfig_writeCheckpoint h, length_writeCheckpoint, hlen]

/-- **Round trip.** Loading what was written gives the configuration, the version and the payload back. -/
theorem loadCheckpoint_writeCheckpoint {version : Int32} {config : ModelConfig} (h : config.Writable version)
    {payload : List (BitVec 32)} (hlen : payload.length = parameterCount config) {file : CheckpointFile}
    (hfile : file.bytes = writeCheckpoint version config payload) :
    ModelWeights.loadCheckpoint file = .ok
      { config, checkpointVersion := version, layout := layoutOf config
        storage := payload.map (Scalar.ofBits : BitVec 32 → α) } := by
  rw [loadCheckpoint_ok_iff, hfile]
  refine ⟨fileValid_writeCheckpoint h hlen, ?_⟩
  have hversion : header (writeCheckpoint version config payload) 1 = version :=
    (header_writeCheckpoint version config payload (i := 1) rfl).trans (Int32.ofBitVec_toBitVec _)
  have hstorage : (ModelWeights.readPayload (writeCheckpoint version config payload) payload.length : List α) =
      payload.map Scalar.ofBits := by
    apply List.ext_getElem?
    intro i
    by_cases hi : i < payload.length
    · rw [getElem?_readPayload _ hi, wordAt_writeCheckpoint version config hi, List.getElem?_map,
        List.getElem?_eq_getElem hi, Option.map_some]
    · rw [List.getElem?_eq_none (by rw [length_readPayload]; omega), List.getElem?_eq_none (by rw [List.length_map]; omega)]
  simp only [fileModel, headerConfig_writeCheckpoint h, hversion, ← hlen, hstorage]

/-! ## The format -/

/-- The words of the header as integers. -/
def headerWord (bytes : List UInt8) (i : Nat) : Int := (header bytes i).toInt

/-- The sixteen tensors the header words describe: version 1 has no padded rows. -/
def headerShapes (bytes : List UInt8) : List (String × List Nat) :=
  tensorShapes (headerWord bytes 2).toNat (if headerWord bytes 1 = 1 then headerWord bytes 3 else headerWord bytes 7).toNat
    (headerWord bytes 4).toNat (headerWord bytes 6).toNat

theorem header_eq_iff {bytes : List UInt8} {i : Nat} {x : Int32} : header bytes i = x ↔ headerWord bytes i = x.toInt :=
  Int32.toInt_inj.symm

/-- The dimensions of a valid header are its words. -/
theorem HeaderValid.words {bytes : List UInt8} (h : HeaderValid bytes) :
    (headerConfig bytes).maxSequenceLength.toNat = (headerWord bytes 2).toNat ∧
      (headerConfig bytes).vocabularySize.toNat = (headerWord bytes 3).toNat ∧
      (headerConfig bytes).paddedVocabularySize.toNat =
        (if headerWord bytes 1 = 1 then headerWord bytes 3 else headerWord bytes 7).toNat ∧
      (headerConfig bytes).numLayers.toNat = (headerWord bytes 4).toNat ∧
      (headerConfig bytes).numHeads.toNat = (headerWord bytes 5).toNat ∧
      (headerConfig bytes).channels.toNat = (headerWord bytes 6).toNat := by
  have hp := fun i h2 h6 => toNat_castSize (Int.le_of_lt (h.positive i h2 h6))
  refine ⟨hp 2 (by omega) (by omega), hp 3 (by omega) (by omega), ?_, hp 4 (by omega) (by omega),
    hp 5 (by omega) (by omega), hp 6 (by omega) (by omega)⟩
  have hone : header bytes 1 = 1 ↔ headerWord bytes 1 = 1 := header_eq_iff
  by_cases h1 : header bytes 1 = 1
  · rw [if_pos (hone.1 h1)]
    simp only [headerConfig, h1, if_true]
    exact hp 3 (by omega) (by omega)
  · rw [if_neg (mt hone.2 h1)]
    simp only [headerConfig, h1, if_false]
    exact toNat_castSize (Int.le_of_lt (h.padded h1).1)

theorem HeaderValid.shapes {bytes : List UInt8} (h : HeaderValid bytes) :
    (headerConfig bytes).shapes = headerShapes bytes := by
  obtain ⟨h2, -, hpad, h4, -, h6⟩ := h.words
  simp only [ModelConfig.shapes, headerShapes, h2, hpad, h4, h6]

theorem fileValid_iff {bytes : List UInt8} :
    FileValid bytes ↔ 1024 ≤ bytes.length ∧ headerWord bytes 0 = 20240326 ∧
      (headerWord bytes 1 = 1 ∨ headerWord bytes 1 = 3) ∧ (∀ i, 2 ≤ i → i ≤ 6 → 0 < headerWord bytes i) ∧
      headerWord bytes 5 ∣ headerWord bytes 6 ∧
      (headerWord bytes 1 = 3 → 0 < headerWord bytes 7 ∧ headerWord bytes 3 ≤ headerWord bytes 7) ∧
      bytes.length = 1024 + 4 * shapeEntries (headerShapes bytes) := by
  have hone : header bytes 1 = 1 ↔ headerWord bytes 1 = 1 := header_eq_iff
  have hthree : header bytes 1 = 3 ↔ headerWord bytes 1 = 3 := header_eq_iff
  have hmagic : header bytes 0 = 20240326 ↔ headerWord bytes 0 = 20240326 := header_eq_iff
  constructor
  · rintro ⟨h0, h1, hd, hsize⟩
    refine ⟨by omega, hmagic.1 h0, h1.imp hone.1 hthree.1, hd.positive, hd.heads_dvd, fun h3 => hd.padded ?_, ?_⟩
    · rw [ne_eq, hone, h3]; decide
    · rw [hsize, ← hd.shapes, shapeEntries_shapes]
  · rintro ⟨-, h0, h1, hpos, hdvd, hpad, hsize⟩
    have hd : HeaderValid bytes := ⟨hpos, hdvd, fun hne => hpad (h1.resolve_left (mt hone.2 hne))⟩
    exact ⟨hmagic.2 h0, h1.imp hone.2 hthree.2, hd, by rw [hsize, ← hd.shapes, shapeEntries_shapes]⟩

/-- **The loader accepts exactly the format and decodes it faithfully**: the acceptance condition over
the exact integers, the fields and every entry of the sixteen tensors on success, the words that do
not matter, and the round trip with the writer. -/
theorem loadCheckpoint_exact (file : CheckpointFile) :
    ((∃ weights : ModelWeights α, ModelWeights.loadCheckpoint file = .ok weights) ↔
      1024 ≤ file.bytes.length ∧ headerWord file.bytes 0 = 20240326 ∧
      (headerWord file.bytes 1 = 1 ∨ headerWord file.bytes 1 = 3) ∧
      (∀ i, 2 ≤ i → i ≤ 6 → 0 < headerWord file.bytes i) ∧ headerWord file.bytes 5 ∣ headerWord file.bytes 6 ∧
      (headerWord file.bytes 1 = 3 →
        0 < headerWord file.bytes 7 ∧ headerWord file.bytes 3 ≤ headerWord file.bytes 7) ∧
      file.bytes.length = 1024 + 4 * shapeEntries (headerShapes file.bytes)) ∧
    (∀ weights : ModelWeights α, ModelWeights.loadCheckpoint file = .ok weights →
      weights.checkpointVersion.toInt = headerWord file.bytes 1 ∧
      (weights.config.maxSequenceLength.toNat : Int) = headerWord file.bytes 2 ∧
      (weights.config.vocabularySize.toNat : Int) = headerWord file.bytes 3 ∧
      (weights.config.paddedVocabularySize.toNat : Int) =
        (if headerWord file.bytes 1 = 1 then headerWord file.bytes 3 else headerWord file.bytes 7) ∧
      (weights.config.numLayers.toNat : Int) = headerWord file.bytes 4 ∧
      (weights.config.numHeads.toNat : Int) = headerWord file.bytes 5 ∧
      (weights.config.channels.toNat : Int) = headerWord file.bytes 6 ∧
      shapeEntries (headerShapes file.bytes) < 2 ^ 64 ∧
      ∀ pre name dims post, headerShapes file.bytes = pre ++ (name, dims) :: post →
        ∃ view, weights.tensor name = .ok view ∧ view.values.length = dims.prod ∧
          (view.shape.take view.rank).map UInt64.toNat = dims ∧
          ∀ i, i < dims.prod → view.get (UInt64.ofNat i) =
            .ok (Scalar.ofBits (wordAt file.bytes (1024 + 4 * (shapeEntries pre + i))))) ∧
    (∀ file' : CheckpointFile, SameWords file.bytes file'.bytes →
      (ModelWeights.loadCheckpoint file' : Except Exc (ModelWeights α)) = ModelWeights.loadCheckpoint file) ∧
    (∀ version config payload, ModelConfig.Writable config version →
      payload.length = shapeEntries config.shapes → file.bytes = writeCheckpoint version config payload →
      ∃ weights : ModelWeights α, ModelWeights.loadCheckpoint file = .ok weights ∧ weights.config = config ∧
        weights.checkpointVersion = version ∧ weights.storage = payload.map Scalar.ofBits) := by
  refine ⟨?_, ?_, fun file' h => h.loadCheckpoint_eq.symm, ?_⟩
  · rw [← fileValid_iff]
    simp only [loadCheckpoint_ok_iff, exists_and_left, exists_eq, and_true]
  · intro weights hload
    obtain ⟨hvalid, rfl⟩ := (loadCheckpoint_ok_iff file weights).1 hload
    obtain ⟨h2, h3, hpad, h4, h5, h6⟩ := hvalid.dims.words
    obtain ⟨hlen, -, hver, hpos, -, hpadpos, hsize⟩ := fileValid_iff.1 hvalid
    have hpadpos' : 0 ≤ if headerWord file.bytes 1 = 1 then headerWord file.bytes 3 else headerWord file.bytes 7 := by
      have := hpos 3 (by omega) (by omega)
      rcases hver with h1 | h1
      · rw [if_pos h1]; omega
      · rw [if_neg (by omega)]; have := hpadpos h1; omega
    have hcast : ∀ {n : Nat} {x : Int}, 0 ≤ x → n = x.toNat → (n : Int) = x := by
      intro n x hx h; omega
    refine ⟨rfl, hcast (Int.le_of_lt (hpos 2 (by omega) (by omega))) h2,
      hcast (Int.le_of_lt (hpos 3 (by omega) (by omega))) h3, hcast hpadpos' hpad,
      hcast (Int.le_of_lt (hpos 4 (by omega) (by omega))) h4, hcast (Int.le_of_lt (hpos 5 (by omega) (by omega))) h5,
      hcast (Int.le_of_lt (hpos 6 (by omega) (by omega))) h6, ?_, ?_⟩
    · have := file.size_lt; omega
    · intro pre name dims post hs
      exact hvalid.tensor_words (by rw [hvalid.dims.shapes, hs])
  · intro version config payload hw hlen hbytes
    exact ⟨_, loadCheckpoint_writeCheckpoint hw (hlen.trans (shapeEntries_shapes config)) hbytes, rfl, rfl, rfl⟩

end Gpt2Runtime
