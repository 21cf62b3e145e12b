/-
  FieldRemap.Proofs.Arbitration — which candidates win.

  The winners ascend without overlap (`pairwise_arbitrate`), and every candidate starts inside
  a winner that is considered no later (`exists_mem_arbitrate`). Where spans never cross
  (`Laminar`) the winners are the widest candidates: each candidate lies within a winner
  (`exists_within`), and no candidate that holds a winner is wider or of a lower priority
  (`widest`). Between candidates of one span and priority the first collected wins
  (`first_of_mem_arbitrate`); where there are no such two the order of collection makes no
  difference (`arbitrate_perm`).
-/

import FieldRemap.Edit
import FieldRemap.Proofs.Lists

namespace FieldRemap

def Span.Within (a b : Span) : Prop :=
  b.start ≤ a.start ∧ a.stop ≤ b.stop

theorem Span.eq_of_bounds {a b : Span} (hstart : a.start = b.start) (hstop : a.stop = b.stop) : a = b := by
  cases a
  cases b
  cases hstart
  cases hstop
  rfl

namespace Candidate

variable {α : Type} {candidates : List (Candidate α)}

theorem le_iff {a b : Candidate α} : le a b = true ↔ a.span.start < b.span.start ∨
    a.span.start = b.span.start ∧
      (b.span.stop < a.span.stop ∨ a.span.stop = b.span.stop ∧ a.priority ≤ b.priority) := by
  simp [le]

theorem le_trans (a b c : Candidate α) (hab : le a b = true) (hbc : le b c = true) : le a c = true := by
  rw [le_iff] at *
  omega

theorem le_total (a b : Candidate α) : (le a b || le b a) = true := by
  rw [Bool.or_eq_true, le_iff, le_iff]
  omega

theorem le_of_same {a b : Candidate α} (hspan : a.span = b.span) (hpriority : a.priority = b.priority) :
    le a b = true := by
  rw [le_iff, hspan, hpriority]
  omega

/-! ## The scan -/

theorem accept_sublist (covered : Nat) (candidates : List (Candidate α)) :
    List.Sublist (accept covered candidates) candidates := by
  induction candidates generalizing covered with
  | nil => exact .slnil
  | cons x rest ih =>
    unfold accept
    split
    · exact (ih covered).cons x
    · exact (ih x.span.stop).cons_cons x

theorem covered_le {covered : Nat} (hspans : ∀ x ∈ candidates, x.span.start < x.span.stop) :
    ∀ x ∈ accept covered candidates, covered ≤ x.span.start := by
  induction candidates generalizing covered with
  | nil => simp [accept]
  | cons y rest ih =>
    have hy := hspans y List.mem_cons_self
    have hrest := fun x hx => hspans x (List.mem_cons_of_mem _ hx)
    unfold accept
    split
    · exact ih hrest
    · intro x hx
      rcases List.mem_cons.mp hx with rfl | hx
      · omega
      · have := ih hrest x hx
        omega

theorem pairwise_accept {covered : Nat} (hspans : ∀ x ∈ candidates, x.span.start < x.span.stop) :
    (accept covered candidates).Pairwise (fun a b => a.span.stop ≤ b.span.start) := by
  induction candidates generalizing covered with
  | nil => exact .nil
  | cons y rest ih =>
    have hrest := fun x hx => hspans x (List.mem_cons_of_mem _ hx)
    unfold accept
    split
    · exact ih hrest
    · exact List.pairwise_cons.mpr ⟨covered_le hrest, ih hrest⟩

theorem exists_mem_accept {covered : Nat} {x : Candidate α}
    (hspans : ∀ x ∈ candidates, x.span.start < x.span.stop)
    (hsorted : candidates.Pairwise (fun a b => le a b = true)) (hx : x ∈ candidates)
    (hcovered : covered ≤ x.span.start) :
    ∃ w ∈ accept covered candidates, le w x = true ∧ w.span.start ≤ x.span.start ∧ x.span.start < w.span.stop := by
  induction candidates generalizing covered with
  | nil => cases hx
  | cons y rest ih =>
    obtain ⟨hy, hsorted⟩ := List.pairwise_cons.mp hsorted
    have hrest := fun x hx => hspans x (List.mem_cons_of_mem _ hx)
    unfold accept
    split
    · next hlt =>
      rcases List.mem_cons.mp hx with rfl | hx
      · omega
      · exact ih hrest hsorted hx hcovered
    · rcases List.mem_cons.mp hx with rfl | hx
      · exact ⟨x, List.mem_cons_self, le_of_same rfl rfl, Nat.le_refl _, hspans x List.mem_cons_self⟩
      · by_cases hinside : x.span.start < y.span.stop
        · have hle := hy x hx
          refine ⟨y, List.mem_cons_self, hle, ?_, hinside⟩
          rw [le_iff] at hle
          omega
        · obtain ⟨w, hw, h⟩ := @ih y.span.stop hrest hsorted hx (by omega)
          exact ⟨w, List.mem_cons_of_mem _ hw, h⟩

def same (a b : Candidate α) : Bool :=
  a.span = b.span && a.priority = b.priority

theorem same_iff {a b : Candidate α} : same a b = true ↔ a.span = b.span ∧ a.priority = b.priority := by
  simp [same]

/-- A candidate taken is the first of its span and priority. -/
theorem head_of_mem_accept {covered : Nat} {x : Candidate α}
    (hspans : ∀ x ∈ candidates, x.span.start < x.span.stop)
    (hx : x ∈ accept covered candidates) : (candidates.filter (same x)).head? = some x := by
  induction candidates generalizing covered with
  | nil => cases hx
  | cons y rest ih =>
    have hy := hspans y List.mem_cons_self
    have hrest := fun x hx => hspans x (List.mem_cons_of_mem _ hx)
    have skip {covered : Nat} (hx : x ∈ accept covered rest) (hlt : y.span.start < covered) :
        ((y :: rest).filter (same x)).head? = some x := by
      have hne : ¬ same x y = true := by
        rw [same_iff]
        intro h
        obtain ⟨hspan, -⟩ := h
        have := covered_le hrest x hx
        rw [hspan] at this
        omega
      rw [List.filter_cons_of_neg hne]
      exact ih hrest hx
    unfold accept at hx
    split at hx
    · next hlt => exact skip hx hlt
    · rcases List.mem_cons.mp hx with rfl | hx
      · rw [List.filter_cons_of_pos (same_iff.mpr ⟨rfl, rfl⟩), List.head?_cons]
      · exact skip hx hy

/-! ## The winners -/

theorem sublist_sorted {part : List (Candidate α)} (hpart : part.Pairwise (fun a b => le a b = true))
    (h : List.Sublist part candidates) : List.Sublist part (candidates.mergeSort le) :=
  List.sublist_mergeSort le_trans le_total hpart h

/-- Sorting keeps candidates of one span and priority in their order. -/
theorem filter_sorted (x : Candidate α) : (candidates.mergeSort le).filter (same x) = candidates.filter
    (same x) := by
  have hpairwise : (candidates.filter (same x)).Pairwise (fun a b => le a b = true) := by
    have hall : (candidates.filter (same x)).Pairwise (fun _ _ => True) := List.pairwise_of_forall fun _ _ => trivial
    refine hall.imp_of_mem fun {a b} ha hb _ => ?_
    obtain ⟨hs, hp⟩ := same_iff.mp (List.mem_filter.mp ha).2
    obtain ⟨hs', hp'⟩ := same_iff.mp (List.mem_filter.mp hb).2
    exact le_of_same (hs.symm.trans hs') (hp.symm.trans hp')
  have hsub := (sublist_sorted hpairwise List.filter_sublist).filter (same x)
  rw [List.filter_filter] at hsub
  simp only [Bool.and_self] at hsub
  refine (hsub.eq_of_length ?_).symm
  exact ((List.mergeSort_perm candidates le).filter (same x)).length_eq.symm

/-- Candidates in order are taken as they stand. -/
theorem arbitrate_of_pairwise (h : candidates.Pairwise (fun a b => le a b = true)) :
    arbitrate candidates = accept 0 candidates := by
  rw [arbitrate, List.mergeSort_of_pairwise h]

theorem mem_of_mem_arbitrate {x : Candidate α} (h : x ∈ arbitrate candidates) : x ∈ candidates :=
  List.mem_mergeSort.mp ((accept_sublist _ _).subset h)

section

variable (hspans : ∀ x ∈ candidates, x.span.start < x.span.stop)

include hspans

theorem pairwise_arbitrate : (arbitrate candidates).Pairwise (fun a b => a.span.stop ≤ b.span.start) :=
  pairwise_accept fun x hx => hspans x (List.mem_mergeSort.mp hx)

theorem exists_mem_arbitrate {x : Candidate α} (hx : x ∈ candidates) :
    ∃ w ∈ arbitrate candidates, le w x = true ∧ w.span.start ≤ x.span.start ∧ x.span.start < w.span.stop :=
  exists_mem_accept (fun x hx => hspans x (List.mem_mergeSort.mp hx))
    (List.pairwise_mergeSort le_trans le_total candidates) (List.mem_mergeSort.mpr hx) (Nat.zero_le _)

/-- Winners that overlap are one. -/
theorem eq_of_overlap {x y : Candidate α} (hx : x ∈ arbitrate candidates) (hy : y ∈ arbitrate candidates)
    (hxy : x.span.start < y.span.stop) (hyx : y.span.start < x.span.stop) : x = y :=
  eq_of_not_rel (pairwise_arbitrate hspans) hx hy (by omega) (by omega)

/-- A winner stands in every order of collection before the others of its span and priority. -/
theorem first_of_mem_arbitrate {r : Candidate α → Candidate α → Prop} (hr : candidates.Pairwise r)
    {x y : Candidate α}
    (hx : x ∈ arbitrate candidates) (hy : y ∈ candidates) (hspan : x.span = y.span)
    (hpriority : x.priority = y.priority) : x = y ∨ r x y := by
  have hhead := head_of_mem_accept (fun x hx => hspans x (List.mem_mergeSort.mp hx)) hx
  rw [filter_sorted] at hhead
  obtain ⟨rest, hfilter⟩ := List.head?_eq_some_iff.mp hhead
  have hmem : y ∈ candidates.filter (same x) := List.mem_filter.mpr ⟨hy, same_iff.mpr ⟨hspan, hpriority⟩⟩
  have hpairwise := hr.filter (same x)
  rw [hfilter] at hmem hpairwise
  rcases List.mem_cons.mp hmem with h | h
  · exact .inl h.symm
  · exact .inr ((List.pairwise_cons.mp hpairwise).1 y h)

/-- The spans of the winners of a kind ascend. -/
theorem ascending_spans (p : Candidate α → Bool) :
    (((arbitrate candidates).filter p).map (·.span)).Pairwise (·.start < ·.start) := by
  refine List.pairwise_map.mpr (((pairwise_arbitrate hspans).imp_of_mem fun {a b} ha _ hab => ?_).filter p)
  have := hspans a (mem_of_mem_arbitrate ha)
  omega

/-- Two arbitrations have as many winners of a kind each when these stand at the same places. -/
theorem countP_arbitrate_eq {β : Type} {others : List (Candidate β)}
    (hothers : ∀ x ∈ others, x.span.start < x.span.stop)
    {p : Candidate α → Bool} {q : Candidate β → Bool}
    (h : ∀ span, (∃ x ∈ arbitrate candidates, p x = true ∧ x.span = span) ↔
      ∃ y ∈ arbitrate others, q y = true ∧ y.span = span) :
    (arbitrate candidates).countP p = (arbitrate others).countP q := by
  have hequal : ((arbitrate candidates).filter p).map (·.span) = ((arbitrate others).filter q).map (·.span) := by
    apply eq_of_mem_iff (ascending_spans hspans p) (ascending_spans hothers q)
    intro span
    simpa only [List.mem_map, List.mem_filter, and_assoc] using h span
  have := congrArg List.length hequal
  rwa [List.length_map, List.length_map, ← List.countP_eq_length_filter, ← List.countP_eq_length_filter] at this

end

/-! ## The order of collection -/

def map {β : Type} (f : α → β) (c : Candidate α) : Candidate β :=
  ⟨c.span, c.priority, f c.value⟩

theorem accept_map {β : Type} (f : α → β) (covered : Nat) (candidates : List (Candidate α)) :
    accept covered (candidates.map (map f)) = (accept covered candidates).map (map f) := by
  induction candidates generalizing covered with
  | nil => rfl
  | cons x rest ih =>
    have hspan : (x.map f).span = x.span := rfl
    rw [List.map_cons, accept, accept, hspan]
    split
    · exact ih covered
    · rw [ih, List.map_cons]

/-- Which candidates win does not depend on their values. -/
theorem arbitrate_map {β : Type} (f : α → β) (candidates : List (Candidate α)) :
    arbitrate (candidates.map (map f)) = (arbitrate candidates).map (map f) := by
  have hsort : (candidates.mergeSort le).map (map f) = (candidates.map (map f)).mergeSort le :=
    List.map_mergeSort fun _ _ _ _ => rfl
  rw [arbitrate, arbitrate, ← hsort, accept_map]

/-- Where span and priority tell the candidate, the order in which they are collected makes no difference. -/
theorem arbitrate_perm {others : List (Candidate α)} (hperm : others.Perm candidates)
    (hone : ∀ x ∈ candidates, ∀ y ∈ candidates, x.span = y.span → x.priority = y.priority → x = y) :
    arbitrate others = arbitrate candidates := by
  have hsorted (l : List (Candidate α)) : (l.mergeSort le).Pairwise fun a b => le a b = true :=
    List.pairwise_mergeSort le_trans le_total l
  have hmerged : (others.mergeSort le).Perm (candidates.mergeSort le) :=
    (List.mergeSort_perm others le).trans (hperm.trans (List.mergeSort_perm candidates le).symm)
  have heq : others.mergeSort le = candidates.mergeSort le := by
    refine List.Perm.eq_of_pairwise (fun a b ha hb hab hba => ?_) (hsorted others) (hsorted candidates) hmerged
    rw [le_iff] at hab hba
    refine hone a (hperm.mem_iff.mp (List.mem_mergeSort.mp ha)) b (List.mem_mergeSort.mp hb) ?_ (by omega)
    exact Span.eq_of_bounds (by omega) (by omega)
  rw [arbitrate, arbitrate, heq]

/-- Where no two candidates overlap all of them win. -/
theorem mem_arbitrate_of_apart (hspans : ∀ x ∈ candidates, x.span.start < x.span.stop)
    (hapart : ∀ x ∈ candidates, ∀ y ∈ candidates, x = y ∨ x.span.stop ≤ y.span.start ∨ y.span.stop ≤ x.span.start)
    {x : Candidate α} : x ∈ arbitrate candidates ↔ x ∈ candidates := by
  refine ⟨mem_of_mem_arbitrate, fun hx => ?_⟩
  obtain ⟨w, hw, -, hstart, hstop⟩ := exists_mem_arbitrate hspans hx
  have := hspans x hx
  rcases hapart x hx w (mem_of_mem_arbitrate hw) with rfl | hbefore | hbehind
  · exact hw
  · omega
  · omega

/-! ## Spans that never cross -/

/-- The spans are not empty, and any two are apart or one holds the other. -/
structure Laminar (candidates : List (Candidate α)) : Prop where
  spans : ∀ x ∈ candidates, x.span.start < x.span.stop
  nested : ∀ x ∈ candidates, ∀ y ∈ candidates, x.span.stop ≤ y.span.start ∨ y.span.stop ≤ x.span.start ∨
    x.span.Within y.span ∨ y.span.Within x.span

namespace Laminar

variable (h : Laminar candidates)

include h

theorem exists_within {x : Candidate α}
    (hx : x ∈ candidates) : ∃ w ∈ arbitrate candidates, x.span.Within w.span := by
  obtain ⟨w, hw, hle, hstart, hstop⟩ := exists_mem_arbitrate h.spans hx
  refine ⟨w, hw, ?_⟩
  have hspan := h.spans x hx
  rw [le_iff] at hle
  rcases h.nested x hx w (mem_of_mem_arbitrate hw) with hn | hn | hn | hn
  · omega
  · omega
  · exact hn
  · unfold Span.Within at hn ⊢
    omega

theorem widest {x y : Candidate α} (hx : x ∈ arbitrate candidates) (hy : y ∈ candidates)
    (hwithin : x.span.Within y.span) : y.span = x.span ∧ x.priority ≤ y.priority := by
  obtain ⟨w, hw, hle, hstart, hstop⟩ := exists_mem_arbitrate h.spans hy
  have hspan := h.spans x (mem_of_mem_arbitrate hx)
  obtain ⟨v, hv, hvy⟩ := h.exists_within hy
  unfold Span.Within at hwithin hvy
  -- all winners that meet the wider candidate are one
  obtain rfl : v = x := eq_of_overlap h.spans hv hx (by omega) (by omega)
  obtain rfl : w = v := eq_of_overlap h.spans hw hv (by omega) (by omega)
  have hspan : y.span = w.span := Span.eq_of_bounds (by omega) (by omega)
  rw [le_iff, hspan] at hle
  exact ⟨hspan, by omega⟩

omit h in
/-- A winner, and a winner of another arbitration that the other way round holds it, are of one span and
    priority when each is a candidate on the other side. -/
theorem agree {β : Type} {others : List (Candidate β)} (h : Laminar candidates) (hothers : Laminar others)
    {x y : Candidate α} {z w : Candidate β} (hx : x ∈ arbitrate candidates) (hy : y ∈ candidates)
    (hz : z ∈ others) (hw : w ∈ arbitrate others) (hzx : z.span = x.span ∧ z.priority = x.priority)
    (hyw : y.span = w.span ∧ y.priority = w.priority) (hwithin : z.span.Within w.span) :
    w.span = x.span ∧ w.priority = x.priority := by
  obtain ⟨hspan, hle⟩ := h.widest hx hy (by rw [hyw.1, ← hzx.1]; exact hwithin)
  have hspan : w.span = x.span := hyw.1.symm.trans hspan
  obtain ⟨_, hle'⟩ := hothers.widest hw hz (by rw [hspan, hzx.1]; exact ⟨Nat.le_refl _, Nat.le_refl _⟩)
  exact ⟨hspan, by omega⟩

end Laminar

end Candidate

end FieldRemap
