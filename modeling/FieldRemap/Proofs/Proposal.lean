/-
  FieldRemap.Proofs.Proposal — which fields are proposed for which slots.

  A confidence below the threshold, or one that is no number, makes no candidate (`mem_candidates`),
  so the candidates' confidences are in a total order and stand in descending order when they are
  looked at (`pairwise_rank`). What is taken has its slot and its field to itself
  (`pairwise_choose`). What is not taken had its slot or its field taken, before the pass or by a
  candidate of at least its confidence (`blocked_of_mem`). So the proposals are a stable one-to-one
  assignment, whatever the confidences are (`propose_stable`); those of `suggestAssignments` are
  the ones where the names are compared.
-/

import FieldRemap.Assignment.Proposal

namespace FieldRemap

namespace Single

variable {a b c : Single}

theorem le_iff : a.le b = true ↔ a.isNumber = true ∧ b.isNumber = true ∧ a.order ≤ b.order := by
  simp [le, and_assoc]

theorem le_refl (h : a.isNumber = true) : a.le a = true := by
  simp [le_iff, h]

theorem isNumber_of_le (h : a.le b = true) : b.isNumber = true :=
  (le_iff.mp h).2.1

end Single

namespace Proposal

/-! ## Candidates -/

section

variable (score : Slot → DatasetField → Single) (least : Single) (slots : List Slot) (fields : List DatasetField)

/-- A pair that may be proposed: an open slot, and a field of its type that is no highlight component and is alike
    enough. -/
structure Compatible (slot : Slot) (field : DatasetField) : Prop where
  slot_mem : slot ∈ slots
  isOpen : slot.isAssigned = false
  field_mem : field ∈ fields
  notHighlight : field.isHighlightComponent = false
  type_eq : field.dataType = slot.dataType
  least_le : least.le (score slot field) = true

def ofPair (slot : Slot) (field : DatasetField) : Suggestion :=
  ⟨slot.key, field.key, field.name, score slot field⟩

end

variable {score : Slot → DatasetField → Single} {least : Single} {slots : List Slot} {fields : List DatasetField}
variable {c : Suggestion} {candidates : List Suggestion} {takenSlots takenFields : List String}

theorem admits_iff {slot : Slot} {field : DatasetField} :
    admits slot field = true ↔ field.isHighlightComponent = false ∧ field.dataType = slot.dataType := by
  simp [admits]

theorem mem_candidates : c ∈ Proposal.candidates score least slots fields ↔
    ∃ slot field, Compatible score least slots fields slot field ∧ c = ofPair score slot field := by
  simp only [Proposal.candidates, List.mem_flatMap, List.mem_filterMap, List.mem_filter, Bool.not_eq_true',
    Option.ite_none_right_eq_some, Option.some.injEq, admits_iff]
  constructor
  · rintro ⟨slot, ⟨hslot, hopen⟩, field, ⟨hfield, hhighlight, htype⟩, hleast, rfl⟩
    exact ⟨slot, field, ⟨hslot, hopen, hfield, hhighlight, htype, hleast⟩, rfl⟩
  · rintro ⟨slot, field, h, rfl⟩
    exact ⟨slot, ⟨h.slot_mem, h.isOpen⟩, field, ⟨h.field_mem, h.notHighlight, h.type_eq⟩, h.least_le, rfl⟩

theorem isNumber_of_mem_candidates (h : c ∈ Proposal.candidates score least slots fields) :
    c.confidence.isNumber = true := by
  obtain ⟨slot, field, hpair, rfl⟩ := mem_candidates.mp h
  exact Single.isNumber_of_le hpair.least_le

/-- Numbers are sorted by their order, which is total where comparing is not. -/
theorem pairwise_rank (h : ∀ c ∈ candidates, c.confidence.isNumber = true) :
    (rank candidates).Pairwise fun a b => b.confidence.le a.confidence = true := by
  have hrank : rank candidates =
      candidates.mergeSort fun a b => decide (b.confidence.order ≤ a.confidence.order) := by
    have hmap := @List.map_mergeSort _ _ (fun a b => b.confidence.le a.confidence)
      (fun a b => decide (b.confidence.order ≤ a.confidence.order)) id candidates fun a ha b hb => by
        simp [Single.le, h a ha, h b hb]
    simpa [rank] using hmap
  have hsorted : (rank candidates).Pairwise fun a b => b.confidence.order ≤ a.confidence.order := by
    rw [hrank]
    refine (List.pairwise_mergeSort ?_ ?_ candidates).imp fun hle => of_decide_eq_true hle
    · intro a b c hab hbc
      simp only [decide_eq_true_eq] at *
      omega
    · intro a b
      simp only [Bool.or_eq_true, decide_eq_true_eq]
      omega
  refine hsorted.imp_of_mem fun {a b} ha hb hle => ?_
  exact Single.le_iff.mpr ⟨h b (List.mem_mergeSort.mp hb), h a (List.mem_mergeSort.mp ha), hle⟩

/-! ## The choice -/

theorem choose_of_taken (h : c.slotKey ∈ takenSlots ∨ c.objectKey ∈ takenFields) :
    choose takenSlots takenFields (c :: candidates) = choose takenSlots takenFields candidates := by
  rw [choose, if_pos (by simpa using h)]

theorem choose_of_free (hslot : c.slotKey ∉ takenSlots) (hfield : c.objectKey ∉ takenFields) :
    choose takenSlots takenFields (c :: candidates) =
      c :: choose (c.slotKey :: takenSlots) (c.objectKey :: takenFields) candidates := by
  rw [choose, if_neg (by simp [hslot, hfield])]

/-- What is taken is a candidate, and its slot and its field were free. -/
theorem free_of_mem_choose (h : c ∈ choose takenSlots takenFields candidates) :
    c ∈ candidates ∧ c.slotKey ∉ takenSlots ∧ c.objectKey ∉ takenFields := by
  induction candidates generalizing takenSlots takenFields with
  | nil => cases h
  | cons first rest ih =>
    by_cases htaken : first.slotKey ∈ takenSlots ∨ first.objectKey ∈ takenFields
    · rw [choose_of_taken htaken] at h
      obtain ⟨hmem, hfree⟩ := ih h
      exact ⟨List.mem_cons_of_mem _ hmem, hfree⟩
    · obtain ⟨hslot, hfield⟩ := not_or.mp htaken
      rw [choose_of_free hslot hfield] at h
      rcases List.mem_cons.mp h with rfl | h
      · exact ⟨List.mem_cons_self, hslot, hfield⟩
      · obtain ⟨hmem, hslots, hfields⟩ := ih h
        exact ⟨List.mem_cons_of_mem _ hmem, fun h => hslots (List.mem_cons_of_mem _ h),
          fun h => hfields (List.mem_cons_of_mem _ h)⟩

/-- No slot and no field is taken twice. -/
theorem pairwise_choose (takenSlots takenFields : List String) (candidates : List Suggestion) :
    (choose takenSlots takenFields candidates).Pairwise fun a b =>
      a.slotKey ≠ b.slotKey ∧ a.objectKey ≠ b.objectKey := by
  induction candidates generalizing takenSlots takenFields with
  | nil => exact List.Pairwise.nil
  | cons first rest ih =>
    by_cases htaken : first.slotKey ∈ takenSlots ∨ first.objectKey ∈ takenFields
    · rw [choose_of_taken htaken]
      exact ih _ _
    · obtain ⟨hslot, hfield⟩ := not_or.mp htaken
      rw [choose_of_free hslot hfield]
      refine List.pairwise_cons.mpr ⟨fun other hother => ?_, ih _ _⟩
      obtain ⟨-, hslots, hfields⟩ := free_of_mem_choose hother
      exact ⟨fun heq => hslots (heq ▸ List.mem_cons_self), fun heq => hfields (heq ▸ List.mem_cons_self)⟩

/-- A candidate that is not taken has its slot or its field taken, from the start or by one that is at least as good. -/
theorem blocked_of_mem (hnumbers : ∀ c ∈ candidates, c.confidence.isNumber = true)
    (hsorted : candidates.Pairwise fun a b => b.confidence.le a.confidence = true) (h : c ∈ candidates) :
    c.slotKey ∈ takenSlots ∨ c.objectKey ∈ takenFields ∨ ∃ s ∈ choose takenSlots takenFields candidates,
      (s.slotKey = c.slotKey ∨ s.objectKey = c.objectKey) ∧ c.confidence.le s.confidence = true := by
  induction candidates generalizing takenSlots takenFields with
  | nil => cases h
  | cons first rest ih =>
    obtain ⟨hfirst, hrest⟩ := List.pairwise_cons.mp hsorted
    have hnumbers' : ∀ c ∈ rest, c.confidence.isNumber = true := fun c hc => hnumbers c (List.mem_cons_of_mem _ hc)
    by_cases htaken : first.slotKey ∈ takenSlots ∨ first.objectKey ∈ takenFields
    · rw [choose_of_taken htaken]
      rcases List.mem_cons.mp h with rfl | h
      · exact htaken.imp_right .inl
      · exact ih hnumbers' hrest h
    · obtain ⟨hslot, hfield⟩ := not_or.mp htaken
      rw [choose_of_free hslot hfield]
      rcases List.mem_cons.mp h with rfl | h
      · exact .inr (.inr ⟨c, List.mem_cons_self, .inl rfl, Single.le_refl (hnumbers c List.mem_cons_self)⟩)
      -- what was free before `first` and is taken behind it is the slot or the field of `first`
      rcases ih hnumbers' hrest h with hc | hc | ⟨s, hs, hshared, hle⟩
      · rcases List.mem_cons.mp hc with heq | hc
        · exact .inr (.inr ⟨first, List.mem_cons_self, .inl heq.symm, hfirst c h⟩)
        · exact .inl hc
      · rcases List.mem_cons.mp hc with heq | hc
        · exact .inr (.inr ⟨first, List.mem_cons_self, .inr heq.symm, hfirst c h⟩)
        · exact .inr (.inl hc)
      · exact .inr (.inr ⟨s, List.mem_cons_of_mem _ hs, hshared, hle⟩)

/-! ## Proposals -/

theorem suggestions_propose : (propose score least slots fields).suggestions =
    choose [] (slots.filterMap (·.suppliedKey)) (rank (Proposal.candidates score least slots fields)) := rfl

/-- What is proposed is a compatible pair, and its field is not supplied to a slot. -/
theorem compatible_of_mem_propose (h : c ∈ (propose score least slots fields).suggestions) :
    (∃ slot field, Compatible score least slots fields slot field ∧ c = ofPair score slot field) ∧
      ∀ slot ∈ slots, slot.suppliedKey ≠ some c.objectKey := by
  obtain ⟨hmem, -, hfree⟩ := free_of_mem_choose h
  refine ⟨mem_candidates.mp (List.mem_mergeSort.mp hmem), fun slot hslot heq => hfree ?_⟩
  exact List.mem_filterMap.mpr ⟨slot, hslot, heq⟩

/-- The field of a compatible pair is supplied to a slot, or its slot or field is proposed with at least its
    confidence. -/
theorem Compatible.blocked {slot : Slot} {field : DatasetField} (h : Compatible score least slots fields slot field) :
    (∃ other ∈ slots, other.suppliedKey = some field.key) ∨ ∃ s ∈ (propose score least slots fields).suggestions,
      (s.slotKey = slot.key ∨ s.objectKey = field.key) ∧ (score slot field).le s.confidence = true := by
  have hmem : ofPair score slot field ∈ rank (Proposal.candidates score least slots fields) :=
    List.mem_mergeSort.mpr (mem_candidates.mpr ⟨slot, field, h, rfl⟩)
  have hnumbers : ∀ c ∈ rank (Proposal.candidates score least slots fields), c.confidence.isNumber = true :=
    fun c hc => isNumber_of_mem_candidates (List.mem_mergeSort.mp hc)
  have hsorted : (rank (Proposal.candidates score least slots fields)).Pairwise fun a b =>
      b.confidence.le a.confidence = true := pairwise_rank fun c hc => isNumber_of_mem_candidates hc
  rw [suggestions_propose]
  rcases (blocked_of_mem hnumbers hsorted hmem : _ ∈ [] ∨ _) with hnone | hsupplied | hshared
  · exact absurd hnone List.not_mem_nil
  · exact .inl (List.mem_filterMap.mp hsupplied)
  · exact .inr hshared

/-- Whatever the confidences and the threshold are: what is proposed is a compatible pair of that confidence, no slot
    and no field is proposed twice, and no field that is supplied already. No compatible pair would do better: its field
    is supplied already, or its slot or its field is in a proposal of at least its confidence. -/
theorem propose_stable (score : Slot → DatasetField → Single) (least : Single) (slots : List Slot)
    (fields : List DatasetField) :
    let suggestions := (propose score least slots fields).suggestions
    (∀ s ∈ suggestions, ∃ slot field, Compatible score least slots fields slot field ∧ s = ofPair score slot field) ∧
      (suggestions.map (·.slotKey)).Nodup ∧ (suggestions.map (·.objectKey)).Nodup ∧
      (∀ s ∈ suggestions, ∀ slot ∈ slots, slot.suppliedKey ≠ some s.objectKey) ∧
      ∀ slot field, Compatible score least slots fields slot field →
        (∃ other ∈ slots, other.suppliedKey = some field.key) ∨
          ∃ s ∈ suggestions, (s.slotKey = slot.key ∨ s.objectKey = field.key) ∧
            (score slot field).le s.confidence = true := by
  intro suggestions
  have hpairwise : suggestions.Pairwise fun a b => a.slotKey ≠ b.slotKey ∧ a.objectKey ≠ b.objectKey :=
    pairwise_choose _ _ _
  refine ⟨fun s hs => (compatible_of_mem_propose hs).1, ?_, ?_, fun s hs => (compatible_of_mem_propose hs).2, ?_⟩
  · exact List.pairwise_map.mpr (hpairwise.imp fun h => h.1)
  · exact List.pairwise_map.mpr (hpairwise.imp fun h => h.2)
  · exact fun slot field h => h.blocked

/-- The better slot gets the field that both would take, and the other one what is left. -/
example :
    let slots : List Slot := [.new "b" "B" .text .column, .new "a" "A" .text .column]
    let fields : List DatasetField := [⟨"x", "X", .text, .column, false⟩, ⟨"y", "Y", .text, .column, false⟩]
    let score (slot : Slot) (field : DatasetField) : Single :=
      if slot.key = "b" ∧ field.key = "x" then .one else defaultConfidence
    (propose score .zero slots fields).suggestions = [⟨"b", "x", "X", .one⟩, ⟨"a", "y", "Y", defaultConfidence⟩] := by
  intro slots fields score
  rw [suggestions_propose, rank, List.mergeSort_of_pairwise] <;> decide

end Proposal

end FieldRemap
