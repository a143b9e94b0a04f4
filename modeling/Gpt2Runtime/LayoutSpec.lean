import Mathlib.Data.List.Pairwise
import Gpt2Runtime.CheckpointSpec
import Gpt2Runtime.Lib.Intervals
/-
# The layout is an exact partition (`model.cpp:76-133`)

| here | there |
| --- | --- |
| `ParameterLayout.Exact`     | what a layout of given shapes is, over the natural numbers |
| `ParameterLayout.Unwrapped` | every size the constructor holds before it returns or throws |

`add` keeps `Exact` whatever it is given, so a prefix of the sixteen calls that was not stopped holds
exact sizes; no positivity is needed for that. Positivity and monotone partial products are what makes
the checks complete (`foldlM_product`, `foldlM_add`).
-/

namespace Gpt2Runtime

open Loop Word Intervals

/-- The name and the first `rank` shape entries of a tensor. -/
def TensorSpec.dimensions (spec : TensorSpec) : String × List Nat :=
  (spec.name, (spec.shape.take spec.rank).map UInt64.toNat)

namespace ParameterLayout

/-- A layout of the tensors `shapes`, one after the other from 0. -/
structure Exact (layout : ParameterLayout) (shapes : List (String × List Nat)) : Prop where
  shapes_eq : layout.tensors.map TensorSpec.dimensions = shapes
  counts : ∀ spec ∈ layout.tensors, spec.count.toNat = ((spec.shape.take spec.rank).map UInt64.toNat).prod
  tiles : Tiles 0 (layout.tensors.map fun spec => (spec.offset.toNat, spec.count.toNat)) layout.totalCount.toNat

theorem Exact.empty : Exact ⟨[], 0⟩ [] := ⟨rfl, by simp, .nil⟩

/-- The total is the sum of the products. -/
theorem Exact.total {layout : ParameterLayout} {shapes : List (String × List Nat)} (h : layout.Exact shapes) :
    layout.totalCount.toNat = shapeEntries shapes := by
  obtain ⟨rfl, hcounts, htiles⟩ := h
  have hsum := htiles.sum_counts
  have hprods : layout.tensors.map (fun spec => spec.count.toNat) =
      (layout.tensors.map TensorSpec.dimensions).map fun s => s.2.prod := by
    rw [List.map_map]
    exact List.map_congr_left hcounts
  rw [List.map_map, Function.comp_def] at hsum
  simp only [hprods, Nat.zero_add] at hsum
  exact hsum.symm

/-- Two tensors share no float. -/
theorem Exact.apart {layout : ParameterLayout} {shapes : List (String × List Nat)} (h : layout.Exact shapes)
    {spec other : TensorSpec} (hspec : spec ∈ layout.tensors) (hother : other ∈ layout.tensors) (hne : spec ≠ other) :
    Apart (spec.offset.toNat, spec.count.toNat) (other.offset.toNat, other.count.toNat) := by
  have hsymm : Std.Symm fun x y : TensorSpec => Apart (x.offset.toNat, x.count.toNat) (y.offset.toNat, y.count.toNat) :=
    ⟨fun _ _ => Apart.symm⟩
  exact (List.pairwise_map.1 h.tiles.apart).forall hspec hother hne

/-- **Every stored float belongs to exactly one tensor.** -/
theorem Exact.existsUnique_tensor {layout : ParameterLayout} {shapes : List (String × List Nat)} (h : layout.Exact shapes)
    {i : Nat} (hi : i < layout.totalCount.toNat) :
    ∃! spec, spec ∈ layout.tensors ∧ spec.offset.toNat ≤ i ∧ i < spec.offset.toNat + spec.count.toNat := by
  obtain ⟨_, hmem, hlo, hhi⟩ := h.tiles.covers (Nat.zero_le i) hi
  obtain ⟨spec, hspec, rfl⟩ := List.mem_map.1 hmem
  refine ⟨spec, ⟨hspec, hlo, hhi⟩, ?_⟩
  rintro other ⟨hother, hlo', hhi'⟩
  by_contra hne
  rcases h.apart hspec hother (Ne.symm hne) with hbefore | hafter
  · exact absurd (Nat.le_trans hbefore hlo') (Nat.not_le_of_lt hhi)
  · exact absurd (Nat.le_trans hafter hlo) (Nat.not_le_of_lt hhi')

/-- A product that is not stopped is exact. -/
theorem foldlM_product_exact {context : String} :
    ∀ {dimensions : List UInt64} {a r : UInt64},
      dimensions.foldlM (fun result dimension => checkedMultiply result dimension context) a = .ok r →
        r.toNat = a.toNat * entryCount dimensions
  | [], a, r, h => by
    obtain rfl : a = r := by simpa using h
    simp [entryCount]
  | d :: ds, a, r, h => by
    rw [List.foldlM_cons, bind_eq_ok] at h
    obtain ⟨b, hb, hr⟩ := h
    rw [foldlM_product_exact hr, checkedMultiply_ok_iff.1 hb, entryCount_cons, Nat.mul_assoc]

theorem product_exact {dimensions : List UInt64} {context : String} {r : UInt64} (h : product dimensions context = .ok r) :
    r.toNat = entryCount dimensions := by
  simpa using foldlM_product_exact h

/-- **One `add`** that is not stopped puts the next tensor behind the others. -/
theorem Exact.add {layout layout' : ParameterLayout} {shapes : List (String × List Nat)} {name : String}
    {dimensions : List UInt64} (h : layout.Exact shapes) (hadd : layout.add name dimensions = .ok layout') :
    layout'.Exact (shapes ++ [(name, dimensions.map UInt64.toNat)]) := by
  unfold ParameterLayout.add at hadd
  rw [throwIf_bind_ok, bind_eq_ok] at hadd
  obtain ⟨hlen, count, hcount, hadd⟩ := hadd
  rw [bind_eq_ok] at hadd
  obtain ⟨total, htotal, hadd⟩ := hadd
  obtain rfl : _ = layout' := Except.ok.inj hadd
  have hcount := product_exact hcount
  have htotal := checkedAdd_ok_iff.1 htotal
  have hdims : (dimensions ++ List.replicate (4 - dimensions.length) (0 : UInt64)).take dimensions.length = dimensions :=
    List.take_left
  constructor
  · simp [h.shapes_eq, TensorSpec.dimensions, hdims]
  · intro spec hspec
    rcases List.mem_append.1 hspec with hspec | hspec
    · exact h.counts spec hspec
    · obtain rfl := List.mem_singleton.1 hspec
      simpa [hdims, entryCount] using hcount
  · rw [htotal, List.map_append]
    exact h.tiles.concat count.toNat

/-- **The run of `add` calls.** -/
theorem Exact.foldlM_add : ∀ {tensors : List (String × List UInt64)} {layout layout' : ParameterLayout}
    {shapes : List (String × List Nat)}, layout.Exact shapes →
      tensors.foldlM (fun layout tensor => layout.add tensor.1 tensor.2) layout = .ok layout' →
        layout'.Exact (shapes ++ tensors.map fun t => (t.1, t.2.map UInt64.toNat))
  | [], layout, layout', shapes, h, hrun => by
    obtain rfl : layout = layout' := by simpa using hrun
    simpa using h
  | t :: ts, layout, layout', shapes, h, hrun => by
    rw [List.foldlM_cons, bind_eq_ok] at hrun
    obtain ⟨next, hnext, hrun⟩ := hrun
    simpa using Exact.foldlM_add (h.add hnext) hrun

/-- The sizes the constructor holds at any point: the two derived dimensions, the partial products of
each tensor and the layout after each `add`. -/
structure Unwrapped (config : ModelConfig) : Prop where
  triple : ∀ c3, checkedMultiply 3 config.channels "3 * channels" = .ok c3 → c3.toNat = 3 * config.channels.toNat
  quadruple : ∀ c4, checkedMultiply 4 config.channels "4 * channels" = .ok c4 → c4.toNat = 4 * config.channels.toNat
  products : ∀ c3 c4, ∀ t ∈ tensorDimensions config c3 c4, ∀ j r,
    product (t.2.take j) t.1 = .ok r → r.toNat = ((t.2.take j).map UInt64.toNat).prod
  layouts : ∀ c3 c4, checkedMultiply 3 config.channels "3 * channels" = .ok c3 →
    checkedMultiply 4 config.channels "4 * channels" = .ok c4 → ∀ k layout,
      ((tensorDimensions config c3 c4).take k).foldlM
        (fun (layout : ParameterLayout) tensor => layout.add tensor.1 tensor.2) ⟨[], 0⟩ = .ok layout → layout.Exact (config.shapes.take k)

theorem unwrapped (config : ModelConfig) : Unwrapped config where
  triple _ h := checkedMultiply_ok_iff.1 h
  quadruple _ h := checkedMultiply_ok_iff.1 h
  products _ _ _ _ _ _ h := product_exact h
  layouts c3 c4 h3 h4 k layout hrun := by
    have hshapes := map_tensorDimensions (checkedMultiply_ok_iff.1 h3) (checkedMultiply_ok_iff.1 h4)
    have := Exact.empty.foldlM_add hrun
    rwa [List.nil_append, List.map_take, hshapes] at this

/-- A layout the constructor returns is exact. -/
theorem make_exact {config : ModelConfig} {layout : ParameterLayout} (h : make config = .ok layout) :
    layout.Exact config.shapes ∧ layout.tensors.length = 16 := by
  unfold make at h
  simp only [bind_eq_ok, throwIf_ok_iff, not_not] at h
  obtain ⟨-, -, c3, h3, c4, h4, built, hrun, -, hlen, hret⟩ := h
  obtain rfl : built = layout := Except.ok.inj hret
  have := (unwrapped config).layouts c3 c4 h3 h4 16 built (by simpa [tensorDimensions] using hrun)
  exact ⟨by simpa [ModelConfig.shapes, tensorShapes] using this, hlen⟩

theorem checkedMultiply_error {left right : UInt64} {context : String} {e : Exc}
    (h : checkedMultiply left right context = .error e) : e = overflow context := by
  by_cases hlt : left.toNat * right.toNat < 2 ^ 64
  · rw [checkedMultiply_of_lt hlt] at h
    exact absurd h (by simp)
  · rw [checkedMultiply_of_ge (by omega)] at h
    exact (Except.error.inj h).symm

/-- Apart from the validation's, the constructor's one error is an overflow. -/
theorem make_error {config : ModelConfig} {e : Exc} (h : make config = .error e) :
    config.validate = .error e ∨ (config.Valid ∧ 2 ^ 64 ≤ parameterCount config ∧ ∃ context, e = overflow context) := by
  by_cases hv : config.Valid
  · right
    have hN : 2 ^ 64 ≤ parameterCount config := by
      by_contra hlt
      have hok := (make_ok_iff config _).2 ⟨hv, by omega, rfl⟩
      rw [hok] at h
      exact absurd h (by simp)
    refine ⟨hv, hN, ?_⟩
    have hC := hv.channels
    simp only [make, (ModelConfig.validate_ok_iff config).2 hv, ok_bind] at h
    -- the derived dimensions, then the sixteen tensors
    rcases bind_eq_error.1 h with h3 | ⟨c3, h3, h⟩
    · exact ⟨_, checkedMultiply_error h3⟩
    rcases bind_eq_error.1 h with h4 | ⟨c4, h4, h⟩
    · exact ⟨_, checkedMultiply_error h4⟩
    have h3 := checkedMultiply_ok_iff.1 h3
    have h4 := checkedMultiply_ok_iff.1 h4
    have hfits := fits_tensorDimensions hv c3 c4 (by rw [h3]; exact Nat.mul_pos (by decide) hC)
      (by rw [h4]; exact Nat.mul_pos (by decide) hC)
    obtain ⟨context, herr⟩ := (foldlM_add hfits ⟨[], 0⟩).2
      (by rw [totalEntries_tensorDimensions h3 h4]; simpa using hN)
    rw [herr, error_bind] at h
    exact ⟨context, (Except.error.inj h).symm⟩
  · left
    cases hval : config.validate with
    | ok u => exact absurd ((ModelConfig.validate_ok_iff config).1 hval) hv
    | error e' =>
      rw [make, hval, error_bind] at h
      exact congrArg Except.error (Except.error.inj h)

theorem shapes_names_nodup (config : ModelConfig) : (config.shapes.map Prod.fst).Nodup := by
  simp [ModelConfig.shapes, tensorShapes]

theorem find?_of_names_nodup {tensors : List TensorSpec} {spec : TensorSpec} (hnd : (tensors.map TensorSpec.name).Nodup)
    (hspec : spec ∈ tensors) : tensors.find? (fun s => s.name = spec.name) = some spec := by
  induction tensors with
  | nil => simp at hspec
  | cons t ts ih =>
    obtain ⟨hnot, hnd⟩ := List.nodup_cons.1 hnd
    rcases List.mem_cons.1 hspec with rfl | hspec
    · simp
    · have hne : t.name ≠ spec.name := by
        intro heq
        exact hnot (heq ▸ List.mem_map_of_mem hspec)
      rw [List.find?_cons_of_neg (by simpa using hne)]
      exact ih hnd hspec

/-- With distinct names, `at(name)` returns the one tensor of that name. -/
theorem Exact.at?_ok {layout : ParameterLayout} {shapes : List (String × List Nat)} (h : layout.Exact shapes)
    (hnd : (shapes.map Prod.fst).Nodup) {name : String} (hname : name ∈ shapes.map Prod.fst) :
    ∃ spec ∈ layout.tensors, spec.name = name ∧ layout.at? name = .ok spec ∧
      ∀ other ∈ layout.tensors, other.name = name → other = spec := by
  have hnames : layout.tensors.map TensorSpec.name = shapes.map Prod.fst := by
    rw [← h.shapes_eq, List.map_map]
    rfl
  rw [← hnames] at hnd hname
  obtain ⟨spec, hspec, rfl⟩ := List.mem_map.1 hname
  refine ⟨spec, hspec, rfl, ?_, ?_⟩
  · unfold at?
    rw [find?_of_names_nodup hnd hspec]
  · intro other hother heq
    exact List.inj_on_of_nodup_map hnd hother hspec heq

/-- **The constructor's checks are exact and its tensors partition the storage.** -/
theorem layout_exact (config : ModelConfig) :
    ((∃ layout, make config = .ok layout) ↔ config.validate = .ok () ∧
      config.channels.toNat * (config.paddedVocabularySize.toNat + config.maxSequenceLength.toNat + 2) +
        config.numLayers.toNat * config.channels.toNat * (12 * config.channels.toNat + 13) ≤ 2 ^ 64 - 1) ∧
    (∀ e, make config = .error e → config.validate = .error e ∨
      ∃ context, e = .overflowError ("size overflow while computing " ++ context)) ∧
    Unwrapped config ∧
    ∀ layout, make config = .ok layout →
      layout.totalCount.toNat =
        config.channels.toNat * (config.paddedVocabularySize.toNat + config.maxSequenceLength.toNat + 2) +
          config.numLayers.toNat * config.channels.toNat * (12 * config.channels.toNat + 13) ∧
      layout.tensors.length = 16 ∧
      (∀ spec ∈ layout.tensors, spec.count.toNat = ((spec.shape.take spec.rank).map UInt64.toNat).prod) ∧
      layout.tensors.map TensorSpec.dimensions = tensorShapes config.maxSequenceLength.toNat
        config.paddedVocabularySize.toNat config.numLayers.toNat config.channels.toNat ∧
      Tiles 0 (layout.tensors.map fun spec => (spec.offset.toNat, spec.count.toNat)) layout.totalCount.toNat ∧
      (∀ i, i < layout.totalCount.toNat →
        ∃! spec, spec ∈ layout.tensors ∧ spec.offset.toNat ≤ i ∧ i < spec.offset.toNat + spec.count.toNat) ∧
      ∀ spec ∈ layout.tensors, layout.at? spec.name = .ok spec ∧
        ∀ other ∈ layout.tensors, other.name = spec.name → other = spec := by
  refine ⟨?_, ?_, unwrapped config, ?_⟩
  · simp only [make_ok_iff, exists_and_left, exists_eq, and_true, ModelConfig.validate_ok_iff, parameterCount]
    exact and_congr_right fun _ => by omega
  · intro e he
    rcases make_error he with hval | ⟨-, -, hover⟩
    · exact .inl hval
    · exact .inr hover
  · intro layout hmake
    obtain ⟨hexact, hlen⟩ := make_exact hmake
    have hnd := shapes_names_nodup config
    refine ⟨by rw [hexact.total, shapeEntries_shapes]; rfl, hlen, hexact.counts, hexact.shapes_eq, hexact.tiles,
      fun _ hi => hexact.existsUnique_tensor hi, ?_⟩
    intro spec hspec
    have hname : spec.name ∈ config.shapes.map Prod.fst := by
      rw [← hexact.shapes_eq, List.map_map]
      exact List.mem_map_of_mem hspec
    obtain ⟨found, hfound, heq, hat, huniq⟩ := hexact.at?_ok hnd hname
    obtain rfl := huniq spec hspec rfl
    exact ⟨hat, huniq⟩

end ParameterLayout

end Gpt2Runtime
