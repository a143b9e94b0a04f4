import Gpt2Runtime.Lib.Loop
import Mathlib.Tactic.Ring
/-
# Flat row-major buffers

A buffer is a list; `IsVec` and `IsMat` say which index function it stores, and `Fills` is the frame
condition of a loop nest that writes one contiguous block: the block holds the new values, every
other entry and the length are as before. `fill_loop` and `block_loop` derive `Fills` for a loop
that writes one entry, respectively one block, per iteration.
-/

namespace Flat

open Loop

variable {α ε : Type}

/-- `l` stores the vector `f 0, …, f (n - 1)`. -/
def IsVec (l : List α) (n : Nat) (f : Nat → α) : Prop :=
  l.length = n ∧ ∀ i, i < n → l[i]? = some (f i)

/-- `l` stores the `R × C` matrix `f`, row after row. -/
def IsMat (l : List α) (R C : Nat) (f : Nat → Nat → α) : Prop :=
  l.length = R * C ∧ ∀ r, r < R → ∀ c, c < C → l[r * C + c]? = some (f r c)

/-- `new` is `old` with the `n` entries from `base` on replaced by `g 0, …, g (n - 1)`. -/
structure Fills (old new : List α) (base n : Nat) (g : Nat → α) : Prop where
  length : new.length = old.length
  get : ∀ c, c < n → new[base + c]? = some (g c)
  frame : ∀ i, i < base ∨ base + n ≤ i → new[i]? = old[i]?

/-! ## Row-major indices -/

theorem idx_lt {R C r c : Nat} (hr : r < R) (hc : c < C) : r * C + c < R * C := by
  calc r * C + c < r * C + C := by omega
    _ = (r + 1) * C := by ring
    _ ≤ R * C := Nat.mul_le_mul_right C hr

/-- A row ends inside the matrix. -/
theorem row_end_le {R C r : Nat} (hr : r < R) : r * C + C ≤ R * C := by
  have := Nat.mul_le_mul_right C hr
  rwa [Nat.succ_mul] at this

theorem idx_div {C r c : Nat} (hc : c < C) : (r * C + c) / C = r := by
  rw [Nat.mul_comm, Nat.mul_add_div (by omega), Nat.div_eq_of_lt hc, Nat.add_zero]

theorem idx_mod {C r c : Nat} (hc : c < C) : (r * C + c) % C = c := by
  rw [Nat.mul_comm, Nat.mul_add_mod, Nat.mod_eq_of_lt hc]

/-- Every index of an `R × C` matrix is `row * C + column`. -/
theorem idx_split {R C i : Nat} (hi : i < R * C) : i / C < R ∧ i % C < C ∧ i / C * C + i % C = i := by
  have hC : 0 < C := by
    rcases Nat.eq_zero_or_pos C with rfl | h
    · simp at hi
    · exact h
  exact ⟨Nat.div_lt_of_lt_mul (by rwa [Nat.mul_comm] at hi), Nat.mod_lt _ hC, Nat.div_add_mod' i C⟩

/-! ## Vectors -/

namespace IsVec

theorem congr {l : List α} {n : Nat} {f g : Nat → α} (h : IsVec l n f) (hfg : ∀ i, i < n → f i = g i) :
    IsVec l n g :=
  ⟨h.1, fun i hi => by rw [h.2 i hi, hfg i hi]⟩

theorem unique {l l' : List α} {n : Nat} {f : Nat → α} (h : IsVec l n f) (h' : IsVec l' n f) : l = l' := by
  apply List.ext_getElem? fun i => ?_
  by_cases hi : i < n
  · rw [h.2 i hi, h'.2 i hi]
  · rw [List.getElem?_eq_none (by rw [h.1]; omega), List.getElem?_eq_none (by rw [h'.1]; omega)]

/-- The list is determined by its index function. -/
theorem eq_map {l : List α} {n : Nat} {f : Nat → α} (h : IsVec l n f) : l = (List.range n).map f := by
  refine h.unique ⟨by simp, fun i hi => ?_⟩
  rw [List.getElem?_map, List.getElem?_range hi, Option.map_some]

/-- Any list of length `n` stores some vector. -/
theorem of_length {l : List α} {n : Nat} (d : α) (h : l.length = n) : IsVec l n (fun i => l.getD i d) :=
  ⟨h, fun i hi => by
    have : i < l.length := by omega
    simp [List.getD_eq_getElem?_getD, List.getElem?_eq_getElem this]⟩

/-- A slice, from the entries of the list there. -/
theorem of_slice {l : List α} {o k : Nat} {f : Nat → α} (hk : o + k ≤ l.length) (h : ∀ i, i < k → l[o + i]? = some (f i)) :
    IsVec ((l.drop o).take k) k f := by
  refine ⟨by rw [List.length_take, List.length_drop]; omega, fun i hi => ?_⟩
  rw [List.getElem?_take_of_lt hi, List.getElem?_drop]
  exact h i hi

theorem slice {l : List α} {n : Nat} {f : Nat → α} (h : IsVec l n f) {o k : Nat} (hk : o + k ≤ n) :
    IsVec ((l.drop o).take k) k (fun i => f (o + i)) :=
  of_slice (h.1 ▸ hk) fun i hi => h.2 _ (by omega)

theorem toMat {l : List α} {R C : Nat} {f : Nat → α} (h : IsVec l (R * C) f) :
    IsMat l R C (fun r c => f (r * C + c)) :=
  ⟨h.1, fun _ hr _ hc => h.2 _ (idx_lt hr hc)⟩

theorem row {l : List α} {n : Nat} {f : Nat → α} (h : IsVec l n f) : IsMat l 1 n (fun _ => f) :=
  ⟨by simpa using h.1, fun r hr c hc => by
    obtain rfl : r = 0 := by omega
    simpa using h.2 c hc⟩

end IsVec

/-! ## Matrices -/

namespace IsMat

theorem congr {l : List α} {R C : Nat} {f g : Nat → Nat → α} (h : IsMat l R C f)
    (hfg : ∀ r, r < R → ∀ c, c < C → f r c = g r c) : IsMat l R C g :=
  ⟨h.1, fun r hr c hc => by rw [h.2 r hr c hc, hfg r hr c hc]⟩

theorem toVec {l : List α} {R C : Nat} {f : Nat → Nat → α} (h : IsMat l R C f) :
    IsVec l (R * C) (fun i => f (i / C) (i % C)) := by
  refine ⟨h.1, fun i hi => ?_⟩
  obtain ⟨h1, h2, h3⟩ := idx_split hi
  have := h.2 _ h1 _ h2
  rwa [h3] at this

theorem unique {l l' : List α} {R C : Nat} {f : Nat → Nat → α} (h : IsMat l R C f) (h' : IsMat l' R C f) :
    l = l' := h.toVec.unique h'.toVec

theorem one_row {l : List α} {C : Nat} {f : Nat → Nat → α} (h : IsMat l 1 C f) : IsVec l C (f 0) :=
  ⟨by simpa using h.1, fun c hc => by simpa using h.2 0 (by omega) c hc⟩

/-- The first `R'` rows. -/
theorem take_rows {l : List α} {R C : Nat} {f : Nat → Nat → α} (h : IsMat l R C f) {R' : Nat} (hR : R' ≤ R) :
    IsMat (l.take (R' * C)) R' C f := by
  have hle := Nat.mul_le_mul_right C hR
  refine ⟨by simp [h.1, hle], fun r hr c hc => ?_⟩
  rw [List.getElem?_take_of_lt (idx_lt hr hc)]
  exact h.2 r (by omega) c hc

end IsMat

/-! ## Writing a block -/

namespace Fills

theorem refl (l : List α) (base : Nat) (g : Nat → α) : Fills l l base 0 g :=
  ⟨rfl, fun _ h => absurd h (Nat.not_lt_zero _), fun _ _ => rfl⟩

/-- One more entry. -/
theorem set {old new : List α} {base n : Nat} {g : Nat → α} (h : Fills old new base n g)
    (hlt : base + n < old.length) : Fills old (new.set (base + n) (g n)) base (n + 1) g := by
  refine ⟨by simp [h.length], fun c hc => ?_, fun i hi => ?_⟩
  · by_cases e : c = n
    · subst e; rw [List.getElem?_set_self (by rw [h.length]; exact hlt)]
    · rw [List.getElem?_set_ne (by omega)]; exact h.get c (by omega)
  · rw [List.getElem?_set_ne (by omega)]; exact h.frame i (by omega)

/-- One more block of `B` entries. -/
theorem block {old mid new : List α} {base k B : Nat} {g : Nat → Nat → α}
    (h : Fills old mid base (k * B) (fun i => g (i / B) (i % B)))
    (hb : Fills mid new (base + k * B) B (g k)) :
    Fills old new base ((k + 1) * B) (fun i => g (i / B) (i % B)) := by
  have hsucc : (k + 1) * B = k * B + B := by ring
  refine ⟨hb.length.trans h.length, fun i hi => ?_, fun i hi => ?_⟩
  · by_cases hlt : i < k * B
    · rw [hb.frame _ (by omega)]; exact h.get i hlt
    · have hj : i - k * B < B := by omega
      have e : i = k * B + (i - k * B) := by omega
      have := hb.get (i - k * B) hj
      rw [Nat.add_assoc, ← e] at this
      have hd : i / B = k := by rw [e]; exact idx_div hj
      have hm : i % B = i - k * B := by conv_lhs => rw [e]
                                        exact idx_mod hj
      rw [this, hd, hm]
  · rw [hb.frame i (by omega)]; exact h.frame i (by omega)

/-- A second pass over the same block hides the first. -/
theorem overwrite {old mid new : List α} {base n : Nat} {f g : Nat → α} (h : Fills old mid base n f)
    (h' : Fills mid new base n g) : Fills old new base n g :=
  ⟨h'.length.trans h.length, h'.get, fun i hi => by rw [h'.frame i hi, h.frame i hi]⟩

/-- A block that already holds `g` is filled with `g`. -/
theorem of_get {l : List α} {base n : Nat} {g : Nat → α} (h : ∀ c, c < n → l[base + c]? = some (g c)) :
    Fills l l base n g := ⟨rfl, h, fun _ _ => rfl⟩

/-- Filling a whole buffer stores the matrix. -/
theorem toMat {old new : List α} {R C : Nat} {g : Nat → Nat → α}
    (h : Fills old new 0 (R * C) (fun i => g (i / C) (i % C))) (hl : old.length = R * C) : IsMat new R C g := by
  refine ⟨h.length.trans hl, fun r hr c hc => ?_⟩
  have := h.get _ (idx_lt hr hc)
  rwa [Nat.zero_add, idx_div hc, idx_mod hc] at this

theorem toVec {old new : List α} {n : Nat} {g : Nat → α} (h : Fills old new 0 n g) (hl : old.length = n) :
    IsVec new n g :=
  ⟨h.length.trans hl, fun i hi => by simpa using h.get i hi⟩

end Fills

/-- **One entry per iteration.** An iteration may read what it is about to overwrite: it is only
told that the entries from `base + c` on are still the old ones. -/
theorem fill_loop {old : List α} {base n : Nat} {g : Nat → α} {body : Nat → List α → Except ε (List α)}
    (hn : base + n ≤ old.length)
    (hbody : ∀ c out, c < n → Fills old out base c g → body c out = .ok (out.set (base + c) (g c))) :
    ∃ out, forN n old body = .ok out ∧ Fills old out base n g :=
  forN_spec (I := fun c out => Fills old out base c g) (Fills.refl old base g) fun c out hc hI =>
    ⟨_, hbody c out hc hI, hI.set (by omega)⟩

/-- One entry per iteration next to an accumulator. -/
theorem fill_acc_loop {β : Type} {old : List α} {base n : Nat} {g : Nat → α} {f : Nat → β → β} {b : β}
    {body : Nat → List α × β → Except ε (List α × β)} (hn : base + n ≤ old.length)
    (hbody : ∀ c out b, c < n → Fills old out base c g → body c (out, b) = .ok (out.set (base + c) (g c), f c b)) :
    ∃ out, forN n (old, b) body = .ok (out, foldN n b f) ∧ Fills old out base n g := by
  obtain ⟨⟨out, b'⟩, hok, hF, rfl⟩ := forN_spec
    (I := fun c s => Fills old s.1 base c g ∧ s.2 = foldN c b f) (n := n) (s := (old, b)) ⟨Fills.refl old base g, rfl⟩ (by
      rintro c ⟨out, b'⟩ hc ⟨hF, rfl⟩
      exact ⟨_, hbody c out _ hc hF, hF.set (by omega), rfl⟩)
  exact ⟨out, hok, hF⟩

/-- **One block of `B` entries per iteration**, the later blocks still untouched. -/
theorem block_loop {old : List α} {base K B : Nat} {g : Nat → Nat → α} {body : Nat → List α → Except ε (List α)}
    (hbody : ∀ k out, k < K → Fills old out base (k * B) (fun i => g (i / B) (i % B)) →
      ∃ out', body k out = .ok out' ∧ Fills out out' (base + k * B) B (g k)) :
    ∃ out, forN K old body = .ok out ∧ Fills old out base (K * B) (fun i => g (i / B) (i % B)) :=
  forN_spec (I := fun k out => Fills old out base (k * B) fun i => g (i / B) (i % B))
    (by simpa using Fills.refl old base _) fun k out hk hI => by
      obtain ⟨out', hok, hF⟩ := hbody k out hk hI
      exact ⟨out', hok, hI.block hF⟩

/-- The same with a second buffer the iterations share; all they keep of it is `P`. -/
theorem block_loop_with {β : Type} {P : β → Prop} {old : List α} {base K B : Nat} {g : Nat → Nat → α}
    {body : Nat → List α × β → Except ε (List α × β)} {b : β} (hb : P b)
    (hbody : ∀ k out b, k < K → out.length = old.length → (∀ i, base + k * B ≤ i → out[i]? = old[i]?) → P b →
      ∃ out' b', body k (out, b) = .ok (out', b') ∧ P b' ∧ Fills out out' (base + k * B) B (g k)) :
    ∃ out b', forN K (old, b) body = .ok (out, b') ∧ P b' ∧
      Fills old out base (K * B) (fun i => g (i / B) (i % B)) := by
  obtain ⟨⟨out, b'⟩, hok, hP, hF⟩ := forN_spec
    (I := fun k s => P s.2 ∧ Fills old s.1 base (k * B) fun i => g (i / B) (i % B)) (n := K) (s := (old, b))
    ⟨hb, by simpa using Fills.refl old base _⟩ (by
      rintro k ⟨out, b⟩ hk ⟨hP, hF⟩
      obtain ⟨out', b', hok, hP', hF'⟩ := hbody k out b hk hF.length (fun i hi => hF.frame i (by omega)) hP
      exact ⟨(out', b'), hok, hP', hF.block hF'⟩)
  exact ⟨out, b', hok, hP, hF⟩

/-- One row per iteration fills a matrix. -/
theorem mat_loop {old : List α} {R C : Nat} {g : Nat → Nat → α} {body : Nat → List α → Except ε (List α)}
    (hl : old.length = R * C)
    (hbody : ∀ r out, r < R → out.length = R * C →
      ∃ out', body r out = .ok out' ∧ Fills out out' (r * C) C (g r)) :
    ∃ out, forN R old body = .ok out ∧ IsMat out R C g := by
  have hstep : ∀ r out, r < R → Fills old out 0 (r * C) (fun i => g (i / C) (i % C)) →
      ∃ out', body r out = .ok out' ∧ Fills out out' (0 + r * C) C (g r) := by
    intro r out hr hF
    rw [Nat.zero_add]
    exact hbody r out hr (hF.length.trans hl)
  obtain ⟨out, hok, hF⟩ := block_loop hstep
  exact ⟨out, hok, hF.toMat hl⟩

/-- One row per iteration next to a shared buffer; a row's old contents are still there when its
iteration starts. -/
theorem mat_loop_with {β : Type} {P : β → Prop} {old : List α} {R C : Nat} {g : Nat → Nat → α}
    {body : Nat → List α × β → Except ε (List α × β)} {b : β} (hl : old.length = R * C) (hb : P b)
    (hbody : ∀ r out b, r < R → out.length = R * C → (∀ i, r * C ≤ i → out[i]? = old[i]?) → P b →
      ∃ out' b', body r (out, b) = .ok (out', b') ∧ P b' ∧ Fills out out' (r * C) C (g r)) :
    ∃ out b', forN R (old, b) body = .ok (out, b') ∧ P b' ∧ IsMat out R C g := by
  have hstep : ∀ r out b, r < R → out.length = old.length → (∀ i, 0 + r * C ≤ i → out[i]? = old[i]?) → P b →
      ∃ out' b', body r (out, b) = .ok (out', b') ∧ P b' ∧ Fills out out' (0 + r * C) C (g r) := by
    intro r out b hr hlen hframe hP
    rw [Nat.zero_add] at hframe ⊢
    exact hbody r out b hr (hlen.trans hl) hframe hP
  obtain ⟨out, b', hok, hP, hF⟩ := block_loop_with hb hstep
  exact ⟨out, b', hok, hP, hF.toMat hl⟩

end Flat
