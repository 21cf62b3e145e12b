/-
  FieldRemap.Proofs.Bisect — what halving finds.

  A predicate splits the indices below `size` at `k` when it holds exactly below `k`.
  Halving finds that place (`partitionPoint_eq`), so membership by halving in a strictly
  ascending array is plain membership (`ascendingMem_iff`).
-/

import FieldRemap.Text.Span

namespace FieldRemap

/-- Below `size` the predicate holds exactly below `k`. -/
def SplitsAt (size : Nat) (holds : Nat → Bool) (k : Nat) : Prop :=
  k ≤ size ∧ ∀ i < size, holds i = true ↔ i < k

theorem partitionPointFrom_eq {size k : Nat} {holds : Nat → Bool} (h : SplitsAt size holds k) :
    ∀ fuel lo hi, lo ≤ k → k ≤ hi → hi ≤ size → hi - lo ≤ fuel → partitionPointFrom holds fuel lo hi = k := by
  intro fuel
  induction fuel with
  | zero => intro lo hi hlo hhi _ hf; simp only [partitionPointFrom]; omega
  | succ fuel ih =>
    intro lo hi hlo hhi hsize hf
    unfold partitionPointFrom
    by_cases hlt : lo < hi
    · rw [if_pos hlt]
      have hmid := h.2 ((lo + hi) / 2) (by omega)
      -- the half that holds the place is kept
      by_cases hm : holds ((lo + hi) / 2) = true
      · simp only [hm, if_true]
        exact ih _ _ (by have := hmid.1 hm; omega) hhi hsize (by omega)
      · simp only [hm, if_false, Bool.false_eq_true]
        exact ih _ _ hlo (by have := mt hmid.2 hm; omega) (by omega) (by omega)
    · rw [if_neg hlt]; omega

theorem partitionPoint_eq {size k : Nat} {holds : Nat → Bool} (h : SplitsAt size holds k) :
    partitionPoint size holds = k :=
  partitionPointFrom_eq h size 0 size (Nat.zero_le _) h.1 (Nat.le_refl _) (Nat.le_refl _)

/-- A predicate that holds of whatever stands before an index it holds of splits the indices. -/
theorem exists_splitsAt {size : Nat} {holds : Nat → Bool}
    (h : ∀ i j, i < j → j < size → holds j = true → holds i = true) : ∃ k, SplitsAt size holds k := by
  induction size with
  | zero => exact ⟨0, Nat.le_refl _, fun i hi => absurd hi (Nat.not_lt_zero i)⟩
  | succ size ih =>
    by_cases hl : holds size = true
    · refine ⟨size + 1, Nat.le_refl _, fun i hi => ⟨fun _ => hi, fun _ => ?_⟩⟩
      rcases Nat.lt_succ_iff_lt_or_eq.mp hi with hi | rfl
      · exact h i size hi (Nat.lt_succ_self _) hl
      · exact hl
    · obtain ⟨k, hk, hs⟩ := ih (fun i j hij hj => h i j hij (by omega))
      refine ⟨k, by omega, fun i hi => ?_⟩
      rcases Nat.lt_succ_iff_lt_or_eq.mp hi with hi | rfl
      · exact hs i hi
      · exact ⟨fun ht => absurd ht hl, fun hlt => absurd hlt (by omega)⟩

theorem ascendingMem_iff {xs : Array Nat} {x : Nat} (h : xs.toList.Pairwise (· < ·)) :
    ascendingMem xs x = true ↔ x ∈ xs.toList := by
  have hget := List.pairwise_iff_getElem.mp h
  simp only [Array.length_toList, Array.getElem_toList] at hget
  have hmono : ∀ i j, i < j → j < xs.size → xs[j]?.any (· < x) = true → xs[i]?.any (· < x) = true := by
    intro i j hij hj hjx
    have hi : i < xs.size := by omega
    have := hget i j hi hj hij
    simp only [Array.getElem?_eq_getElem hi, Array.getElem?_eq_getElem hj, Option.any_some,
      decide_eq_true_eq] at hjx ⊢
    omega
  obtain ⟨k, hk, hs⟩ := exists_splitsAt hmono
  unfold ascendingMem
  rw [partitionPoint_eq ⟨hk, hs⟩, beq_iff_eq]
  constructor
  · intro he
    obtain ⟨hlt, rfl⟩ := Array.getElem?_eq_some_iff.mp he
    exact Array.getElem_mem_toList hlt
  · intro hm
    obtain ⟨i, hi, rfl⟩ := List.mem_iff_getElem.mp hm
    simp only [Array.length_toList] at hi
    simp only [Array.getElem_toList] at hs ⊢
    have hik : ¬ i < k := by
      intro hlt
      have := (hs i hi).mpr hlt
      simp [Array.getElem?_eq_getElem hi] at this
    have hki : ¬ k < i := by
      intro hlt
      have hnot := mt (hs k (by omega)).mp (Nat.lt_irrefl k)
      simp only [Array.getElem?_eq_getElem (show k < xs.size by omega), Option.any_some,
        decide_eq_true_eq] at hnot
      have := hget k i (by omega) hi hlt
      omega
    have : k = i := by omega
    subst this
    exact Array.getElem?_eq_getElem hi

end FieldRemap
