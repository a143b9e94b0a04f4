import Gpt2Runtime.Basic
import Mathlib.Algebra.BigOperators.Group.List.Basic
import Mathlib.Tactic.Linarith
/-
# Configuration and parameter layout (`model.cpp:22-142`)

| here | there |
| --- | --- |
| `ModelConfig.validate`  | `ModelConfig::validate` (`model.cpp:62-74`) |
| `product`               | `product` (`:40-47`) |
| `ParameterLayout.add`   | the `add` lambda (`:82-95`) |
| `tensorDimensions`      | the sixteen `add` calls (`:97-112`) |
| `ParameterLayout.make`  | the constructor (`:76-117`) |
| `ParameterLayout.at?`   | `ParameterLayout::at` (`:124-133`) |
| `TensorView.make`       | the `TensorView` constructor (`:139-153`) |

The constructor is shown to be exact (`make_ok_iff`): it returns iff the configuration is valid and
the natural number of parameters fits in a `size_t`, and then the tensors are laid out one after
the other.
-/

namespace Gpt2Runtime

open Loop Word

structure ModelConfig where
  maxSequenceLength : UInt64
  vocabularySize : UInt64
  paddedVocabularySize : UInt64
  numLayers : UInt64
  numHeads : UInt64
  channels : UInt64
deriving DecidableEq, Repr

def ModelConfig.validate (config : ModelConfig) : Except Exc Unit := do
  throwIf (config.maxSequenceLength = 0 ∨ config.vocabularySize = 0 ∨ config.paddedVocabularySize = 0 ∨
      config.numLayers = 0 ∨ config.numHeads = 0 ∨ config.channels = 0)
    (.invalidArgument "all GPT-2 configuration dimensions must be positive")
  throwIf (config.channels % config.numHeads ≠ 0) (.invalidArgument "channels must be divisible by num_heads")
  throwIf (config.paddedVocabularySize < config.vocabularySize)
    (.invalidArgument "padded_vocabulary_size must be at least vocabulary_size")

/-- The name, the interval of the flat storage and the shape of a tensor; `shape` has four entries,
the ones from `rank` on being zero. -/
structure TensorSpec where
  name : String
  offset : UInt64
  count : UInt64
  shape : List UInt64
  rank : Nat
deriving DecidableEq, Repr

structure ParameterLayout where
  tensors : List TensorSpec
  totalCount : UInt64
deriving DecidableEq, Repr

def product (dimensions : List UInt64) (context : String) : Except Exc UInt64 :=
  dimensions.foldlM (fun result dimension => checkedMultiply result dimension context) 1

namespace ParameterLayout

def add (layout : ParameterLayout) (name : String) (dimensions : List UInt64) : Except Exc ParameterLayout := do
  throwIf (4 < dimensions.length) (.logicError "parameter tensor rank exceeds fixed metadata capacity")
  let count ← product dimensions name
  let total ← checkedAdd layout.totalCount count "total parameter count"
  let spec : TensorSpec :=
    { name, offset := layout.totalCount, count
      shape := dimensions ++ List.replicate (4 - dimensions.length) 0, rank := dimensions.length }
  pure { tensors := layout.tensors ++ [spec], totalCount := total }

def tensorDimensions (config : ModelConfig) (c3 c4 : UInt64) : List (String × List UInt64) :=
  [("wte", [config.paddedVocabularySize, config.channels]),
   ("wpe", [config.maxSequenceLength, config.channels]),
   ("ln1w", [config.numLayers, config.channels]),
   ("ln1b", [config.numLayers, config.channels]),
   ("qkvw", [config.numLayers, c3, config.channels]),
   ("qkvb", [config.numLayers, c3]),
   ("attprojw", [config.numLayers, config.channels, config.channels]),
   ("attprojb", [config.numLayers, config.channels]),
   ("ln2w", [config.numLayers, config.channels]),
   ("ln2b", [config.numLayers, config.channels]),
   ("fcw", [config.numLayers, c4, config.channels]),
   ("fcb", [config.numLayers, c4]),
   ("fcprojw", [config.numLayers, config.channels, c4]),
   ("fcprojb", [config.numLayers, config.channels]),
   ("lnfw", [config.channels]),
   ("lnfb", [config.channels])]

def make (config : ModelConfig) : Except Exc ParameterLayout := do
  config.validate
  let c3 ← checkedMultiply 3 config.channels "3 * channels"
  let c4 ← checkedMultiply 4 config.channels "4 * channels"
  let layout ← (tensorDimensions config c3 c4).foldlM (fun layout tensor => layout.add tensor.1 tensor.2) ⟨[], 0⟩
  throwIf (layout.tensors.length ≠ 16) (.logicError "parameter layout tensor count mismatch")
  pure layout

def at? (layout : ParameterLayout) (name : String) : Except Exc TensorSpec :=
  match layout.tensors.find? fun spec => spec.name = name with
  | some spec => .ok spec
  | none => .error (.outOfRange ("unknown parameter tensor: " ++ name))

end ParameterLayout

structure TensorView (α : Type) where
  values : List α
  shape : List UInt64
  rank : Nat

def TensorView.make {α : Type} (values : List α) (shape : List UInt64) (rank : Nat) : Except Exc (TensorView α) := do
  throwIf (rank = 0 ∨ shape.length < rank) (.invalidArgument "tensor view has invalid rank")
  let expected ← product (shape.take rank) "tensor view shape"
  throwIf (expected.toNat ≠ values.length) (.invalidArgument "tensor view shape does not match its storage range")
  pure ⟨values, shape, rank⟩

/-! ## Valid configurations -/

/-- What `validate` checks, over the natural numbers. -/
structure ModelConfig.Valid (config : ModelConfig) : Prop where
  maxSequenceLength : 0 < config.maxSequenceLength.toNat
  vocabularySize : 0 < config.vocabularySize.toNat
  numLayers : 0 < config.numLayers.toNat
  numHeads : 0 < config.numHeads.toNat
  channels : 0 < config.channels.toNat
  heads_dvd : config.numHeads.toNat ∣ config.channels.toNat
  padded_ge : config.vocabularySize.toNat ≤ config.paddedVocabularySize.toNat

theorem ModelConfig.validate_ok_iff (config : ModelConfig) : config.validate = .ok () ↔ config.Valid := by
  unfold validate
  rw [throwIf_bind_ok, throwIf_bind_ok, throwIf_ok_iff]
  simp only [eq_zero_iff, lt_iff, UInt64.toNat_mod, not_or, not_not, not_lt]
  constructor
  · rintro ⟨⟨h1, h2, h3, h4, h5, h6⟩, h7, h8⟩
    exact ⟨by omega, by omega, by omega, by omega, by omega, Nat.dvd_of_mod_eq_zero h7, h8⟩
  · rintro ⟨h1, h2, h4, h5, h6, h7, h8⟩
    exact ⟨⟨by omega, by omega, by omega, by omega, by omega, by omega⟩, Nat.mod_eq_zero_of_dvd h7, h8⟩

/-! ## Products and sums that fit -/

/-- The natural number of entries of a shape. -/
def entryCount (dimensions : List UInt64) : Nat := (dimensions.map UInt64.toNat).prod

theorem entryCount_cons (d : UInt64) (ds : List UInt64) : entryCount (d :: ds) = d.toNat * entryCount ds := by
  simp [entryCount]

theorem entryCount_pos : ∀ {dimensions : List UInt64}, (∀ d ∈ dimensions, 0 < d.toNat) → 0 < entryCount dimensions
  | [], _ => by simp [entryCount]
  | d :: ds, h => by
    rw [entryCount_cons]
    exact Nat.mul_pos (h d (by simp)) (entryCount_pos fun x hx => h x (by simp [hx]))

/-- Partial products only grow while the dimensions are positive, so a product that fits is
computed without a carry and one that does not is caught. -/
theorem foldlM_product {dimensions : List UInt64} (context : String) (hpos : ∀ d ∈ dimensions, 0 < d.toNat) :
    ∀ a : UInt64, 0 < a.toNat →
      (a.toNat * entryCount dimensions < 2 ^ 64 → ∃ r, dimensions.foldlM
        (fun result dimension => checkedMultiply result dimension context) a = .ok r ∧
          r.toNat = a.toNat * entryCount dimensions) ∧
      (2 ^ 64 ≤ a.toNat * entryCount dimensions → dimensions.foldlM
        (fun result dimension => checkedMultiply result dimension context) a = .error (overflow context)) := by
  induction dimensions with
  | nil =>
    intro a ha
    refine ⟨fun _ => ⟨a, rfl, by simp [entryCount]⟩, fun h => ?_⟩
    have := toNat_lt a
    simp [entryCount] at h; omega
  | cons d ds ih =>
    intro a ha
    have hd : 0 < d.toNat := hpos d (by simp)
    have hds : 0 < entryCount ds := entryCount_pos fun x hx => hpos x (by simp [hx])
    rw [entryCount_cons, ← Nat.mul_assoc]
    by_cases h : a.toNat * d.toNat < 2 ^ 64
    · have hm := toNat_mul_of_lt h
      have ih' := ih (fun x hx => hpos x (by simp [hx])) (a * d) (by rw [hm]; exact Nat.mul_pos ha hd)
      rw [hm] at ih'
      simpa [List.foldlM_cons, checkedMultiply_of_lt h] using ih'
    · have hge : 2 ^ 64 ≤ a.toNat * d.toNat := by omega
      refine ⟨fun hlt => ?_, fun _ => by simp [List.foldlM_cons, checkedMultiply_of_ge hge]⟩
      have := Nat.le_mul_of_pos_right (a.toNat * d.toNat) hds
      omega

theorem product_ok {dimensions : List UInt64} (context : String) (hpos : ∀ d ∈ dimensions, 0 < d.toNat)
    (h : entryCount dimensions < 2 ^ 64) : ∃ r, product dimensions context = .ok r ∧ r.toNat = entryCount dimensions := by
  have := (foldlM_product context hpos 1 (by simp)).1 (by simpa using h)
  simpa [product] using this

theorem product_error {dimensions : List UInt64} (context : String) (hpos : ∀ d ∈ dimensions, 0 < d.toNat)
    (h : 2 ^ 64 ≤ entryCount dimensions) : product dimensions context = .error (overflow context) :=
  (foldlM_product context hpos 1 (by simp)).2 (by simpa using h)

/-! ## The layout -/

namespace ParameterLayout

/-- The specification the layout of `tensors` must meet from a given offset on. -/
def specsFrom : Nat → List (String × List UInt64) → List TensorSpec
  | _, [] => []
  | offset, (name, dimensions) :: rest =>
    { name, offset := UInt64.ofNat offset, count := UInt64.ofNat (entryCount dimensions)
      shape := dimensions ++ List.replicate (4 - dimensions.length) 0, rank := dimensions.length } ::
      specsFrom (offset + entryCount dimensions) rest

/-- The natural number of parameters. -/
def totalEntries (tensors : List (String × List UInt64)) : Nat := (tensors.map fun t => entryCount t.2).sum

theorem totalEntries_cons (t : String × List UInt64) (ts : List (String × List UInt64)) :
    totalEntries (t :: ts) = entryCount t.2 + totalEntries ts := rfl

/-- Dimensions the constructor passes to `add`. -/
def Fits (tensors : List (String × List UInt64)) : Prop :=
  ∀ t ∈ tensors, t.2.length ≤ 4 ∧ ∀ d ∈ t.2, 0 < d.toNat

theorem add_ok {layout : ParameterLayout} {name : String} {dimensions : List UInt64} (hlen : dimensions.length ≤ 4)
    (hpos : ∀ d ∈ dimensions, 0 < d.toNat) (h : layout.totalCount.toNat + entryCount dimensions < 2 ^ 64) :
    layout.add name dimensions = .ok
      { tensors := layout.tensors ++ specsFrom layout.totalCount.toNat [(name, dimensions)]
        totalCount := UInt64.ofNat (layout.totalCount.toNat + entryCount dimensions) } := by
  obtain ⟨r, hr, hrn⟩ := product_ok name hpos (by omega)
  have hadd : layout.totalCount.toNat + r.toNat < 2 ^ 64 := by rw [hrn]; exact h
  have hsum : layout.totalCount + r = UInt64.ofNat (layout.totalCount.toNat + entryCount dimensions) := by
    rw [← UInt64.toNat_inj, toNat_add_of_lt hadd, hrn, toNat_ofNat_of_lt h]
  have hcount : r = UInt64.ofNat (entryCount dimensions) := by
    rw [← UInt64.toNat_inj, hrn, toNat_ofNat_of_lt (by omega)]
  simp only [add, throwIf_of_not (show ¬4 < dimensions.length by omega), hr, checkedAdd_of_lt hadd, ok_bind, pure_ok,
    specsFrom, UInt64.ofNat_toNat, hsum, ← hcount]

theorem add_error {layout : ParameterLayout} (name : String) {dimensions : List UInt64} (hlen : dimensions.length ≤ 4)
    (hpos : ∀ d ∈ dimensions, 0 < d.toNat) (h : 2 ^ 64 ≤ layout.totalCount.toNat + entryCount dimensions) :
    ∃ context, layout.add name dimensions = .error (overflow context) := by
  by_cases hd : entryCount dimensions < 2 ^ 64
  · obtain ⟨r, hr, hrn⟩ := product_ok name hpos hd
    refine ⟨"total parameter count", ?_⟩
    simp [add, throwIf_of_not (show ¬4 < dimensions.length by omega), hr,
      checkedAdd_of_ge (show 2 ^ 64 ≤ layout.totalCount.toNat + r.toNat by omega)]
  · refine ⟨name, ?_⟩
    simp [add, throwIf_of_not (show ¬4 < dimensions.length by omega), product_error name hpos (by omega)]

/-- The sixteen `add` calls: each tensor starts where the previous one ends, or the running total
overflows. -/
theorem foldlM_add {tensors : List (String × List UInt64)} (hfits : Fits tensors) :
    ∀ layout : ParameterLayout,
      (layout.totalCount.toNat + totalEntries tensors < 2 ^ 64 →
        tensors.foldlM (fun layout tensor => layout.add tensor.1 tensor.2) layout = .ok
          { tensors := layout.tensors ++ specsFrom layout.totalCount.toNat tensors
            totalCount := UInt64.ofNat (layout.totalCount.toNat + totalEntries tensors) }) ∧
      (2 ^ 64 ≤ layout.totalCount.toNat + totalEntries tensors → ∃ context,
        tensors.foldlM (fun layout tensor => layout.add tensor.1 tensor.2) layout = .error (overflow context)) := by
  induction tensors with
  | nil =>
    intro layout
    have := toNat_lt layout.totalCount
    refine ⟨fun _ => by simp [specsFrom, totalEntries], fun h => ?_⟩
    simp [totalEntries] at h; omega
  | cons t ts ih =>
    intro layout
    obtain ⟨hlen, hpos⟩ := hfits t (by simp)
    have ih := ih fun u hu => hfits u (by simp [hu])
    rw [totalEntries_cons]
    by_cases h : layout.totalCount.toNat + entryCount t.2 < 2 ^ 64
    · have hstep := ih { tensors := layout.tensors ++ specsFrom layout.totalCount.toNat [(t.1, t.2)]
                         totalCount := UInt64.ofNat (layout.totalCount.toNat + entryCount t.2) }
      simp only [toNat_ofNat_of_lt h] at hstep
      simp only [List.foldlM_cons, add_ok hlen hpos h, ok_bind, ← Nat.add_assoc]
      refine ⟨fun hlt => ?_, hstep.2⟩
      rw [hstep.1 hlt]
      simp [specsFrom]
    · obtain ⟨context, herr⟩ := add_error t.1 hlen hpos (show 2 ^ 64 ≤ layout.totalCount.toNat + _ by omega)
      exact ⟨fun hlt => absurd hlt (by omega), fun _ => ⟨context, by simp [List.foldlM_cons, herr]⟩⟩

/-- The parameters of a configuration, as a natural number: `c3` and `c4` are the exact products. -/
def parameterCount (config : ModelConfig) : Nat :=
  config.channels.toNat * (config.paddedVocabularySize.toNat + config.maxSequenceLength.toNat + 2) +
    config.numLayers.toNat * config.channels.toNat * (12 * config.channels.toNat + 13)

theorem totalEntries_tensorDimensions {config : ModelConfig} {c3 c4 : UInt64}
    (h3 : c3.toNat = 3 * config.channels.toNat) (h4 : c4.toNat = 4 * config.channels.toNat) :
    totalEntries (tensorDimensions config c3 c4) = parameterCount config := by
  simp only [totalEntries, tensorDimensions, entryCount, parameterCount, List.map_cons, List.map_nil, List.prod_cons,
    List.prod_nil, List.sum_cons, List.sum_nil, h3, h4]
  ring

theorem fits_tensorDimensions {config : ModelConfig} (hv : config.Valid) (c3 c4 : UInt64) (h3 : 0 < c3.toNat)
    (h4 : 0 < c4.toNat) : Fits (tensorDimensions config c3 c4) := by
  have hVp : 0 < config.paddedVocabularySize.toNat := Nat.lt_of_lt_of_le hv.vocabularySize hv.padded_ge
  have hT := hv.maxSequenceLength
  have hL := hv.numLayers
  have hC := hv.channels
  simp [Fits, tensorDimensions, *]

/-- The layout of a configuration whose parameters fit. -/
def layoutOf (config : ModelConfig) : ParameterLayout where
  tensors := specsFrom 0 (tensorDimensions config (3 * config.channels) (4 * config.channels))
  totalCount := UInt64.ofNat (parameterCount config)

/-- `3 * channels` and `4 * channels` fit when the parameters do. -/
theorem channels_le_parameterCount {config : ModelConfig} (hv : config.Valid) :
    4 * config.channels.toNat ≤ parameterCount config := by
  have hL := hv.numLayers
  have h1 : config.channels.toNat ≤ config.numLayers.toNat * config.channels.toNat := Nat.le_mul_of_pos_left _ hL
  have h2 : config.numLayers.toNat * config.channels.toNat * 13 ≤
      config.numLayers.toNat * config.channels.toNat * (12 * config.channels.toNat + 13) :=
    Nat.mul_le_mul_left _ (by omega)
  unfold parameterCount
  omega

/-- **The constructor is exact.** -/
theorem make_ok_iff (config : ModelConfig) (layout : ParameterLayout) :
    make config = .ok layout ↔ config.Valid ∧ parameterCount config < 2 ^ 64 ∧ layout = layoutOf config := by
  by_cases hv : config.Valid
  · have hval := (ModelConfig.validate_ok_iff config).2 hv
    have hC := hv.channels
    have hCle := channels_le_parameterCount hv
    by_cases h4 : 4 * config.channels.toNat < 2 ^ 64
    · have e3 : (3 : UInt64).toNat * config.channels.toNat < 2 ^ 64 := by show 3 * _ < _; omega
      have e4 : (4 : UInt64).toNat * config.channels.toNat < 2 ^ 64 := h4
      have n3 : (3 * config.channels).toNat = 3 * config.channels.toNat := toNat_mul_of_lt e3
      have n4 : (4 * config.channels).toNat = 4 * config.channels.toNat := toNat_mul_of_lt e4
      have hadd := foldlM_add (fits_tensorDimensions hv (3 * config.channels) (4 * config.channels)
        (by omega) (by omega)) ⟨[], 0⟩
      simp only [totalEntries_tensorDimensions n3 n4, UInt64.toNat_zero, Nat.zero_add, List.nil_append] at hadd
      simp only [make, hval, checkedMultiply_of_lt e3, checkedMultiply_of_lt e4, ok_bind]
      by_cases hN : parameterCount config < 2 ^ 64
      · rw [hadd.1 hN]
        have hlen : ¬(specsFrom 0 (tensorDimensions config (3 * config.channels) (4 * config.channels))).length ≠ 16 := by
          simp [specsFrom, tensorDimensions]
        simp only [ok_bind, throwIf_of_not hlen, pure_ok, Except.ok.injEq, hv, hN, true_and, layoutOf]
        exact eq_comm
      · obtain ⟨context, herr⟩ := hadd.2 (by omega)
        simp only [herr, error_bind, reduceCtorEq, hN, false_and, and_false]
    · have e4 : 2 ^ 64 ≤ (4 : UInt64).toNat * config.channels.toNat := by show _ ≤ 4 * _; omega
      have hN : ¬parameterCount config < 2 ^ 64 := by omega
      simp only [make, hval, checkedMultiply_of_ge e4, ok_bind, hN, false_and, and_false, iff_false]
      cases checkedMultiply 3 config.channels "3 * channels" <;> simp
  · have hval : config.validate ≠ .ok () := mt (ModelConfig.validate_ok_iff config).1 hv
    cases h : config.validate with
    | error e => simp [make, h, hv]
    | ok u => exact absurd h hval

/-! ## Looking a tensor up -/

/-- The specification `add` builds at a given offset. -/
def specAt (offset : Nat) (name : String) (dimensions : List UInt64) : TensorSpec :=
  { name, offset := UInt64.ofNat offset, count := UInt64.ofNat (entryCount dimensions)
    shape := dimensions ++ List.replicate (4 - dimensions.length) 0, rank := dimensions.length }

theorem find?_specsFrom {name : String} {dimensions : List UInt64} {post : List (String × List UInt64)} :
    ∀ {pre : List (String × List UInt64)} (offset : Nat), name ∉ pre.map Prod.fst →
      (specsFrom offset (pre ++ (name, dimensions) :: post)).find? (fun spec => spec.name = name) =
        some (specAt (offset + totalEntries pre) name dimensions)
  | [], offset, _ => by simp [specsFrom, totalEntries, specAt]
  | (n, ds) :: pre, offset, h => by
    simp only [List.map_cons, List.mem_cons, not_or] at h
    simp only [List.cons_append, specsFrom]
    rw [List.find?_cons_of_neg (by simpa using Ne.symm h.1), find?_specsFrom (offset + entryCount ds) h.2,
      totalEntries_cons, Nat.add_assoc]

theorem names_nodup (config : ModelConfig) (c3 c4 : UInt64) :
    ((tensorDimensions config c3 c4).map Prod.fst).Nodup := by
  simp [tensorDimensions]

/-- `at(name)` returns the one tensor with that name, laid out after the ones before it. -/
theorem layoutOf_at? {config : ModelConfig} {pre post : List (String × List UInt64)} {name : String}
    {dimensions : List UInt64}
    (h : tensorDimensions config (3 * config.channels) (4 * config.channels) = pre ++ (name, dimensions) :: post) :
    (layoutOf config).at? name = .ok (specAt (totalEntries pre) name dimensions) := by
  have hnd := names_nodup config (3 * config.channels) (4 * config.channels)
  rw [h, List.map_append, List.map_cons] at hnd
  have hnot : name ∉ pre.map Prod.fst := fun hm =>
    (List.nodup_append.1 hnd).2.2 name hm name (by simp) rfl
  simp only [at?, layoutOf, h, find?_specsFrom 0 hnot, Nat.zero_add]

theorem totalEntries_append (xs ys : List (String × List UInt64)) :
    totalEntries (xs ++ ys) = totalEntries xs + totalEntries ys := by
  simp [totalEntries]

end ParameterLayout

end Gpt2Runtime
