import Gpt2Runtime.Lib.Intervals
/-
# Splitting a range into equal blocks

`o` items in `n` blocks: block `s` starts at `start n o s` and has `size n o s` items, the first `o % n`
blocks one more than the others. The blocks follow each other without gap or overlap and end at `o`.
-/

namespace Partition

def start (n o s : Nat) : Nat := s * (o / n) + min s (o % n)

def size (n o s : Nat) : Nat := o / n + if s < o % n then 1 else 0

@[simp] theorem start_zero (n o : Nat) : start n o 0 = 0 := by simp [start]

theorem start_succ (n o s : Nat) : start n o (s + 1) = start n o s + size n o s := by
  unfold start size
  rw [Nat.succ_mul]
  split <;> omega

theorem start_self {n o : Nat} (hn : 0 < n) : start n o n = o := by
  have hmod := Nat.mod_lt o hn
  have hdiv := Nat.div_add_mod o n
  unfold start
  omega

theorem start_mono (n o : Nat) {s s' : Nat} (h : s ≤ s') : start n o s ≤ start n o s' := by
  induction s' with
  | zero =>
    cases Nat.le_zero.1 h
    exact Nat.le_refl _
  | succ s' ih =>
    rcases Nat.lt_or_eq_of_le h with hlt | rfl
    · have hle := ih (Nat.le_of_lt_succ hlt)
      rw [start_succ]
      omega
    · exact Nat.le_refl _

/-- Blocks lie inside the range. -/
theorem end_le {n o s : Nat} (hs : s < n) : start n o s + size n o s ≤ o := by
  rw [← start_succ]
  calc start n o (s + 1) ≤ start n o n := start_mono n o hs
    _ = o := start_self (by omega)

/-- Every item is in a block. -/
theorem exists_block {n o i : Nat} (hn : 0 < n) (hi : i < o) : ∃ s c, s < n ∧ c < size n o s ∧ i = start n o s + c := by
  have hcover : ∀ m, i < start n o m → ∃ s c, s < m ∧ c < size n o s ∧ i = start n o s + c := by
    intro m
    induction m with
    | zero =>
      intro h
      rw [start_zero] at h
      omega
    | succ m ih =>
      intro h
      by_cases hm : i < start n o m
      · obtain ⟨s, c, hs, hc, rfl⟩ := ih hm
        exact ⟨s, c, Nat.lt_succ_of_lt hs, hc, rfl⟩
      · rw [start_succ] at h
        exact ⟨m, i - start n o m, Nat.lt_succ_self m, by omega, by omega⟩
  exact hcover n (by rw [start_self hn]; exact hi)

/-- Different blocks share no item. -/
theorem block_ne {n o s s' c c' : Nat} (hne : s ≠ s') (hc : c < size n o s) (hc' : c' < size n o s') :
    start n o s + c ≠ start n o s' + c' := by
  rcases Nat.lt_or_gt_of_ne hne with hlt | hgt
  · have hle := start_mono n o hlt
    rw [start_succ] at hle
    omega
  · have hle := start_mono n o hgt
    rw [start_succ] at hle
    omega

/-- **The blocks tile the range.** -/
theorem tiles {n o : Nat} (hn : 0 < n) :
    Intervals.Tiles 0 ((List.range n).map fun s => (start n o s, size n o s)) o := by
  have hupto : ∀ m, Intervals.Tiles 0 ((List.range m).map fun s => (start n o s, size n o s)) (start n o m) := by
    intro m
    induction m with
    | zero =>
      rw [start_zero]
      exact .nil
    | succ m ih =>
      rw [List.range_succ, List.map_append, start_succ]
      exact ih.concat _
  have hall := hupto n
  rwa [start_self hn] at hall

end Partition
