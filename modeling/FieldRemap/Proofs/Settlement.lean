/-
  FieldRemap.Proofs.Settlement — what arbitration settles.

  Candidates that are equal are told apart by their places in the order of collection, and so
  of any two one is considered before the other (`Precedes`). The winners ascend without overlap,
  and a candidate is dropped only for a winner that it starts inside of and that is considered
  before it (`Settles`). Winners need no further settling (`arbitrate_arbitrate`).
-/

import FieldRemap.Proofs.Arbitration

namespace FieldRemap

namespace Candidate

variable {α : Type} {candidates : List (Candidate α)}

/-! ## Winners that stay -/

theorem accept_of_apart {covered : Nat} (hcovered : ∀ x ∈ candidates, covered ≤ x.span.start)
    (hapart : candidates.Pairwise fun a b => a.span.stop ≤ b.span.start) : accept covered candidates = candidates := by
  induction candidates generalizing covered with
  | nil => rfl
  | cons x rest ih =>
    obtain ⟨hx, hrest⟩ := List.pairwise_cons.mp hapart
    have hle := hcovered x List.mem_cons_self
    rw [accept, if_neg (Nat.not_lt.mpr hle), ih hx hrest]

/-- The winners win again. -/
theorem arbitrate_arbitrate (hspans : ∀ x ∈ candidates, x.span.start < x.span.stop) :
    arbitrate (arbitrate candidates) = arbitrate candidates := by
  have hapart := pairwise_arbitrate hspans
  have hordered : (arbitrate candidates).Pairwise fun a b => le a b = true := by
    refine hapart.imp_of_mem fun {a b} ha _ hab => ?_
    have := hspans a (mem_of_mem_arbitrate ha)
    rw [le_iff]
    omega
  rw [arbitrate_of_pairwise hordered]
  exact accept_of_apart (fun _ _ => Nat.zero_le _) hapart

/-! ## The order of consideration -/

/-- A candidate is considered before another one, each with its place in the order of collection: it starts
    earlier, or is longer, or has the lower priority, or was collected earlier. -/
def Precedes (a b : Candidate α × Nat) : Prop :=
  a.1.span.start < b.1.span.start ∨ a.1.span.start = b.1.span.start ∧
    (b.1.span.stop < a.1.span.stop ∨ a.1.span.stop = b.1.span.stop ∧
      (a.1.priority < b.1.priority ∨ a.1.priority = b.1.priority ∧ a.2 < b.2))

/-- The winners among candidates, each with its place: none is taken twice, they ascend without overlap, and what is
    dropped starts inside a winner that is considered before it. -/
structure Settles (winners : List (Candidate α × Nat)) (candidates : List (Candidate α)) : Prop where
  collected : winners.Subperm candidates.zipIdx
  ascends : winners.Pairwise fun a b => a.1.span.start < b.1.span.start
  apart : winners.Pairwise fun a b => a.1.span.stop ≤ b.1.span.start
  dropped : ∀ x ∈ candidates.zipIdx, x ∉ winners →
    ∃ w ∈ winners, Precedes w x ∧ w.1.span.contains x.1.span.start = true

/-! ## Places -/

def placed (x : Candidate α × Nat) : Candidate (Candidate α × Nat) :=
  ⟨x.1.span, x.1.priority, x⟩

def allPlaced (candidates : List (Candidate α)) : List (Candidate (Candidate α × Nat)) :=
  candidates.zipIdx.map placed

def placedWinners (candidates : List (Candidate α)) : List (Candidate α × Nat) :=
  (arbitrate (allPlaced candidates)).map (·.value)

theorem eq_placed {c : Candidate (Candidate α × Nat)} (h : c ∈ allPlaced candidates) :
    c.value ∈ candidates.zipIdx ∧ c = placed c.value := by
  obtain ⟨x, hx, rfl⟩ := List.mem_map.mp h
  exact ⟨hx, rfl⟩

theorem map_value_allPlaced : (allPlaced candidates).map (·.value) = candidates.zipIdx := by
  rw [allPlaced, List.map_map]
  exact List.map_id _

/-- Candidates are collected in the order of their places. -/
theorem pairwise_allPlaced : (allPlaced candidates).Pairwise fun a b => a.value.2 < b.value.2 := by
  have hplaces : (candidates.zipIdx.map (·.2)).Pairwise (· < ·) := by
    rw [List.zipIdx_map_snd]
    exact List.pairwise_lt_range'
  exact List.pairwise_map.mpr (List.pairwise_map.mp hplaces)

/-- Places make no difference to who wins. -/
theorem map_fst_placedWinners : (placedWinners candidates).map (·.1) = arbitrate candidates := by
  have hcandidates : (allPlaced candidates).map (map (·.1.value)) = candidates := by
    rw [allPlaced, List.map_map]
    exact List.zipIdx_map_fst 0 candidates
  have harbitrate := arbitrate_map (fun x : Candidate α × Nat => x.1.value) (allPlaced candidates)
  rw [hcandidates] at harbitrate
  rw [placedWinners, List.map_map, harbitrate]
  refine List.map_congr_left fun c hc => ?_
  rw [(eq_placed (mem_of_mem_arbitrate hc)).2]
  rfl

theorem subperm_placedWinners : (placedWinners candidates).Subperm candidates.zipIdx := by
  have hsorted := (accept_sublist 0 ((allPlaced candidates).mergeSort le)).map (·.value)
  have hperm := (List.mergeSort_perm (allPlaced candidates) le).map (·.value)
  rw [map_value_allPlaced] at hperm
  exact hsorted.subperm.trans hperm.subperm

/-! ## What is settled -/

section

variable (hspans : ∀ x ∈ candidates, x.span.start < x.span.stop)

include hspans

theorem span_of_mem_allPlaced : ∀ c ∈ allPlaced candidates, c.span.start < c.span.stop := by
  intro c hc
  obtain ⟨hmem, heq⟩ := eq_placed hc
  rw [heq]
  exact hspans _ (List.fst_mem_of_mem_zipIdx hmem)

/-- A candidate that is dropped starts inside a winner considered before it. -/
theorem exists_precedes {x : Candidate α × Nat} (hx : x ∈ candidates.zipIdx) (hdropped : x ∉ placedWinners candidates) :
    ∃ w ∈ placedWinners candidates, Precedes w x ∧ w.1.span.contains x.1.span.start = true := by
  have hall := span_of_mem_allPlaced hspans
  have hmem : placed x ∈ allPlaced candidates := List.mem_map_of_mem hx
  obtain ⟨c, hc, hle, hstart, hstop⟩ := exists_mem_arbitrate hall hmem
  obtain ⟨w, -, rfl⟩ := List.mem_map.mp (mem_of_mem_arbitrate hc)
  have hwinner : w ∈ placedWinners candidates := List.mem_map.mpr ⟨placed w, hc, rfl⟩
  have hcontains : w.1.span.contains x.1.span.start = true := by
    simpa [Span.contains, placed] using And.intro hstart hstop
  refine ⟨w, hwinner, ?_, hcontains⟩
  rcases le_iff.mp hle with hlt | ⟨hstart, hlt | ⟨hstop, hpriority⟩⟩
  · exact .inl hlt
  · exact .inr ⟨hstart, .inl hlt⟩
  · rcases Nat.lt_or_eq_of_le hpriority with hlt | heq
    · exact .inr ⟨hstart, .inr ⟨hstop, .inl hlt⟩⟩
    · -- span and priority are the same, so the place decides
      refine .inr ⟨hstart, .inr ⟨hstop, .inr ⟨heq, ?_⟩⟩⟩
      rcases first_of_mem_arbitrate hall pairwise_allPlaced hc hmem (Span.eq_of_bounds hstart hstop) heq with h | h
      · obtain rfl : w = x := congrArg (·.value) h
        exact absurd hwinner hdropped
      · exact h

theorem settles_placedWinners : Settles (placedWinners candidates) candidates := by
  have hapart : (placedWinners candidates).Pairwise fun a b => a.1.span.stop ≤ b.1.span.start := by
    refine List.pairwise_map.mpr ?_
    refine (pairwise_arbitrate (span_of_mem_allPlaced hspans)).imp_of_mem fun {a b} ha hb hab => ?_
    rwa [(eq_placed (mem_of_mem_arbitrate ha)).2, (eq_placed (mem_of_mem_arbitrate hb)).2] at hab
  refine ⟨subperm_placedWinners, hapart.imp_of_mem fun {a b} ha _ hab => ?_, hapart, fun x => exists_precedes hspans⟩
  have := hspans a.1 (List.fst_mem_of_mem_zipIdx (subperm_placedWinners.subset ha))
  omega

end

/-- Candidates whose spans are not empty are settled: what wins ascends without overlap, and what is dropped starts
    inside a winner considered before it. To arbitrate the winners again changes nothing, and where span and priority
    tell the candidate the order in which they are collected makes no difference. -/
theorem arbitrate_settles (hspans : ∀ x ∈ candidates, x.span.start < x.span.stop) :
    (∃ winners, winners.map (·.1) = arbitrate candidates ∧ Settles winners candidates) ∧
      arbitrate (arbitrate candidates) = arbitrate candidates ∧
      ((∀ x ∈ candidates, ∀ y ∈ candidates, x.span = y.span → x.priority = y.priority → x = y) →
        ∀ others : List (Candidate α), others.Perm candidates → arbitrate others = arbitrate candidates) :=
  ⟨⟨placedWinners candidates, map_fst_placedWinners, settles_placedWinners hspans⟩, arbitrate_arbitrate hspans,
    fun hone _ hperm => arbitrate_perm hperm hone⟩

/-- The longer of two that start together wins, and what starts inside it is dropped. -/
theorem arbitrate_settles_nested :
    let candidates : List (Candidate String) := [⟨⟨0, 9⟩, 1, "long"⟩, ⟨⟨0, 5⟩, 0, "short"⟩, ⟨⟨3, 7⟩, 0, "inner"⟩,
      ⟨⟨10, 12⟩, 0, "next"⟩, ⟨⟨10, 12⟩, 1, "later"⟩]
    (∀ x ∈ candidates, x.span.start < x.span.stop) ∧
      (∀ x ∈ candidates, ∀ y ∈ candidates, x.span = y.span → x.priority = y.priority → x = y) ∧
      arbitrate candidates = [⟨⟨0, 9⟩, 1, "long"⟩, ⟨⟨10, 12⟩, 0, "next"⟩] ∧
      arbitrate candidates.reverse = arbitrate candidates ∧
      arbitrate (arbitrate candidates) = arbitrate candidates ∧
      ∃ winners, winners.map (·.1) = arbitrate candidates ∧ Settles winners candidates := by
  intro candidates
  have hspans : ∀ x ∈ candidates, x.span.start < x.span.stop := by decide
  have hone : ∀ x ∈ candidates, ∀ y ∈ candidates, x.span = y.span → x.priority = y.priority → x = y := by decide
  have hordered : candidates.Pairwise fun a b => le a b = true := by decide
  obtain ⟨hsettles, hagain, hperm⟩ := arbitrate_settles hspans
  exact ⟨hspans, hone, arbitrate_of_pairwise hordered, hperm hone _ candidates.reverse_perm, hagain, hsettles⟩

end Candidate

end FieldRemap
