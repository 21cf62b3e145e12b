/-
  FieldRemap.Proofs.Assigning — what becomes of slots when proposals are written into them.

  Where no two slots have one key, writing the proposals one after another fills every open slot
  that a field is proposed for, and no other (`applyAll_eq`). So the slots that stay open are those
  that were reported as such (`unassignedKeys_fill`). They have nothing to hope for from a second
  pass over the same fields: every field that would do has been supplied, to a slot that had it or
  to one that got it (`taken_fill`). So that pass proposes nothing (`apply_propose`).
-/

import FieldRemap.Proofs.Lists
import FieldRemap.Proofs.Proposal
import Mathlib.Data.List.Forall2

namespace FieldRemap

open TemplateUsermeta Proposal

/-! ## Filling -/

/-- The slot with the field that is proposed for it. An assigned slot stays as it is. -/
def Slot.fill (suggestions : List Suggestion) (slot : Slot) : Slot :=
  if slot.isAssigned then slot
  else
    match suggestions.find? (·.slotKey == slot.key) with
    | some s => slot.assign s.objectKey s.objectName
    | none => slot

namespace Slot

variable {suggestions : List Suggestion} {slot : Slot} {s : Suggestion}

@[simp] theorem key_assign (slot : Slot) (objectKey objectName : String) :
    (slot.assign objectKey objectName).key = slot.key := rfl

@[simp] theorem isAssigned_assign (slot : Slot) (objectKey objectName : String) :
    (slot.assign objectKey objectName).isAssigned = true := rfl

theorem fill_of_assigned (h : slot.isAssigned = true) : slot.fill suggestions = slot := by
  simp [fill, h]

theorem fill_of_none (h : ∀ s ∈ suggestions, s.slotKey ≠ slot.key) : slot.fill suggestions = slot := by
  have hnone : suggestions.find? (·.slotKey == slot.key) = none := by simpa using h
  unfold fill
  rw [hnone]
  split <;> rfl

/-- An open slot gets the field of its proposal, where no two proposals are for one slot. -/
theorem fill_of_mem (hdistinct : suggestions.Pairwise fun a b => a.slotKey ≠ b.slotKey) (hs : s ∈ suggestions)
    (hkey : s.slotKey = slot.key) (hopen : slot.isAssigned = false) :
    slot.fill suggestions = slot.assign s.objectKey s.objectName := by
  have hfind : suggestions.find? (·.slotKey == slot.key) = some s :=
    hkey ▸ find?_of_nodup_map (List.pairwise_map.mpr hdistinct) hs
  simp [fill, hopen, hfind]

@[simp] theorem key_fill (suggestions : List Suggestion) (slot : Slot) : (slot.fill suggestions).key = slot.key := by
  unfold fill
  split
  · rfl
  · split <;> rfl

/-- A filled slot is open when it was and nothing is proposed for it. -/
theorem isAssigned_fill (suggestions : List Suggestion) (slot : Slot) :
    (slot.fill suggestions).isAssigned = (slot.isAssigned || suggestions.any (·.slotKey == slot.key)) := by
  by_cases hassigned : slot.isAssigned = true
  · simp [fill_of_assigned hassigned, hassigned]
  · cases hfind : suggestions.find? (·.slotKey == slot.key) with
    | none =>
      have hnone : suggestions.any (·.slotKey == slot.key) = false := by simpa using hfind
      simp [fill, hassigned, hfind, hnone]
    | some s =>
      have hkey := List.find?_some hfind
      have hany : suggestions.any (·.slotKey == slot.key) = true :=
        List.any_eq_true.mpr ⟨s, List.mem_of_find?_eq_some hfind, hkey⟩
      simp [fill, hassigned, hfind, hany]

end Slot

/-- What becomes of a slot: an assigned one stays, and an open one gets the field that is proposed for it or, if none
    is, stays as well. -/
inductive Slot.Becomes (suggestions : List Suggestion) : Slot → Slot → Prop
  | assigned {slot : Slot} : slot.isAssigned = true → Becomes suggestions slot slot
  | filled {slot : Slot} {s : Suggestion} : slot.isAssigned = false → s ∈ suggestions → s.slotKey = slot.key →
      Becomes suggestions slot (slot.assign s.objectKey s.objectName)
  | unfilled {slot : Slot} : slot.isAssigned = false → (∀ s ∈ suggestions, s.slotKey ≠ slot.key) →
      Becomes suggestions slot slot

theorem Slot.becomes_fill (suggestions : List Suggestion) (slot : Slot) :
    slot.Becomes suggestions (slot.fill suggestions) := by
  by_cases hassigned : slot.isAssigned = true
  · rw [fill_of_assigned hassigned]
    exact .assigned hassigned
  · have hopen : slot.isAssigned = false := by simpa using hassigned
    cases hfind : suggestions.find? (·.slotKey == slot.key) with
    | none =>
      have hnone : ∀ s ∈ suggestions, s.slotKey ≠ slot.key := by simpa using hfind
      rw [fill_of_none hnone]
      exact .unfilled hopen hnone
    | some s =>
      have hfill : slot.fill suggestions = slot.assign s.objectKey s.objectName := by simp [fill, hopen, hfind]
      have hkey := List.find?_some hfind
      rw [hfill]
      exact .filled hopen (List.mem_of_find?_eq_some hfind) (beq_iff_eq.mp hkey)

/-! ## Writing the proposals -/

variable {slots : List Slot} {suggestions : List Suggestion}

/-- The first open slot of a key is the only one of the key that is changed. -/
theorem updateFirst_eq {key : String} {change : Slot → Slot} (hkeys : (slots.map (·.key)).Nodup)
    (h : ∃ slot ∈ slots, slot.key = key ∧ slot.isAssigned = false) :
    ∃ changed, updateFirst (fun slot => slot.key == key && !slot.isAssigned) change slots =
      some (changed, slots.map fun slot => if slot.key = key then change slot else slot) := by
  induction slots with
  | nil =>
    obtain ⟨_, hslot, _⟩ := h
    cases hslot
  | cons first rest ih =>
    obtain ⟨hfirst, hrest⟩ := List.pairwise_cons.mp (List.pairwise_map.mp hkeys)
    obtain ⟨slot, hslot, rfl, hopen⟩ := h
    rcases List.mem_cons.mp hslot with rfl | hslot
    · have hothers : (rest.map fun other => if other.key = slot.key then change other else other) = rest := by
        refine (List.map_congr_left fun other hother => ?_).trans (List.map_id _)
        exact if_neg (hfirst other hother).symm
      refine ⟨change slot, ?_⟩
      rw [updateFirst, if_pos (by simp [hopen]), List.map_cons, if_pos rfl, hothers]
    · have hne : first.key ≠ slot.key := hfirst slot hslot
      obtain ⟨changed, hchanged⟩ := ih (List.pairwise_map.mpr hrest) ⟨slot, hslot, rfl, hopen⟩
      refine ⟨changed, ?_⟩
      rw [updateFirst, if_neg (by simp [hne]), hchanged, List.map_cons, if_neg hne]
      rfl

/-- Filling by the first proposal and then by the others is filling by all of them. -/
theorem fill_cons {slot : Slot} {s : Suggestion} (hopen : s.slotKey = slot.key → slot.isAssigned = false) :
    (if slot.key = s.slotKey then slot.assign s.objectKey s.objectName else slot).fill suggestions =
      slot.fill (s :: suggestions) := by
  by_cases hkey : slot.key = s.slotKey
  · rw [if_pos hkey, Slot.fill_of_assigned (Slot.isAssigned_assign _ _ _)]
    simp [Slot.fill, hopen hkey.symm, hkey]
  · rw [if_neg hkey]
    simp [Slot.fill, Ne.symm hkey]

def AreOpen (slots : List Slot) (suggestions : List Suggestion) : Prop :=
  ∀ s ∈ suggestions, ∃ slot ∈ slots, slot.key = s.slotKey ∧ slot.isAssigned = false

/-- Proposals for different open slots are all written, each into its slot. -/
theorem applyAll_eq (hkeys : (slots.map (·.key)).Nodup)
    (hdistinct : suggestions.Pairwise fun a b => a.slotKey ≠ b.slotKey) (hopen : AreOpen slots suggestions) :
    AssignmentResult.applyAll suggestions slots = (suggestions.length, slots.map (·.fill suggestions)) := by
  induction suggestions generalizing slots with
  | nil =>
    have hfill : slots.map (·.fill []) = slots :=
      (List.map_congr_left fun slot _ => Slot.fill_of_none (by simp)).trans (List.map_id _)
    rw [hfill]
    rfl
  | cons s rest ih =>
    obtain ⟨hs, hrest⟩ := List.pairwise_cons.mp hdistinct
    obtain ⟨hfirst, hothers⟩ := List.forall_mem_cons.mp hopen
    let change (slot : Slot) : Slot := if slot.key = s.slotKey then slot.assign s.objectKey s.objectName else slot
    obtain ⟨changed, hchanged⟩ := @updateFirst_eq _ _ (·.assign s.objectKey s.objectName) hkeys hfirst
    have hkeys' : ((slots.map change).map (·.key)).Nodup := by
      have hsame : (slots.map change).map (·.key) = slots.map (·.key) := by
        rw [List.map_map]
        refine List.map_congr_left fun slot _ => ?_
        by_cases hkey : slot.key = s.slotKey <;> simp [change, hkey]
      rwa [hsame]
    have hopen' : AreOpen (slots.map change) rest := by
      intro other hother
      obtain ⟨slot, hslot, hkey, hslotOpen⟩ := hothers other hother
      have hne : slot.key ≠ s.slotKey := fun heq => hs other hother (heq.symm.trans hkey)
      exact ⟨slot, List.mem_map.mpr ⟨slot, hslot, if_neg hne⟩, hkey, hslotOpen⟩
    have hall : (slots.map change).map (·.fill rest) = slots.map (·.fill (s :: rest)) := by
      rw [List.map_map]
      refine List.map_congr_left fun slot hslot => fill_cons fun hkey => ?_
      obtain ⟨target, htarget, htargetKey, htargetOpen⟩ := hfirst
      obtain rfl := List.inj_on_of_nodup_map hkeys htarget hslot (htargetKey.trans hkey)
      exact htargetOpen
    rw [AssignmentResult.applyAll, hchanged]
    simp only
    rw [ih hkeys' hrest hopen', hall, List.length_cons]

/-! ## Slots that stay open -/

/-- The slots that stay open are those that nothing is proposed for. -/
theorem unassignedKeys_fill (slots : List Slot) (suggestions : List Suggestion) :
    unassignedKeys (slots.map (·.fill suggestions)) =
      (slots.filter fun slot => !slot.isAssigned && !suggestions.any (·.slotKey == slot.key)).map (·.key) := by
  rw [unassignedKeys, List.filter_map, List.map_map]
  have hsame : slots.filter ((!·.isAssigned) ∘ (·.fill suggestions)) =
      slots.filter fun slot => !slot.isAssigned && !suggestions.any (·.slotKey == slot.key) := by
    refine List.filter_congr fun slot _ => ?_
    simp [Slot.isAssigned_fill]
  rw [hsame]
  exact List.map_congr_left fun slot _ => Slot.key_fill suggestions slot

variable {score : Slot → DatasetField → Single} {least : Single} {fields : List DatasetField}

theorem areOpen_propose (score : Slot → DatasetField → Single) (least : Single) (slots : List Slot)
    (fields : List DatasetField) : AreOpen slots (propose score least slots fields).suggestions := by
  intro s hs
  obtain ⟨⟨slot, field, hpair, rfl⟩, -⟩ := compatible_of_mem_propose hs
  exact ⟨slot, hpair.slot_mem, rfl, hpair.isOpen⟩

theorem distinct_propose (score : Slot → DatasetField → Single) (least : Single) (slots : List Slot)
    (fields : List DatasetField) :
    (propose score least slots fields).suggestions.Pairwise fun a b => a.slotKey ≠ b.slotKey :=
  (pairwise_choose _ _ _).imp fun h => h.1

/-- A field that would do for a slot that stays open has been supplied to another. -/
theorem taken_fill (hsupplied : ∀ slot ∈ slots, slot.suppliedKey.isSome = slot.suppliedName.isSome) {slot : Slot}
    {field : DatasetField} (h : Compatible score least
      (slots.map (·.fill (propose score least slots fields).suggestions)) fields slot field) :
    ∃ other ∈ slots.map (·.fill (propose score least slots fields).suggestions),
      other.suppliedKey = some field.key := by
  have hdistinct := distinct_propose score least slots fields
  have hopen := areOpen_propose score least slots fields
  have hblocked {slot : Slot} (h : Compatible score least slots fields slot field) := h.blocked
  generalize (propose score least slots fields).suggestions = suggestions at *
  obtain ⟨origin, horigin, heq⟩ := List.mem_map.mp h.slot_mem
  have hunfilled := h.isOpen
  rw [← heq, Slot.isAssigned_fill, Bool.or_eq_false_iff] at hunfilled
  have hnone : ∀ s ∈ suggestions, s.slotKey ≠ origin.key := by simpa using hunfilled.2
  -- a slot that stays open is what it was
  have hsame : slot = origin := heq.symm.trans (Slot.fill_of_none hnone)
  rw [hsame] at h
  rcases hblocked ⟨horigin, hunfilled.1, h.field_mem, h.notHighlight, h.type_eq, h.least_le⟩ with
    ⟨other, hother, hkey⟩ | ⟨s, hs, hshared, -⟩
  · have hassigned : other.isAssigned = true := by
      rw [Slot.isAssigned, ← hsupplied other hother, hkey]
      rfl
    exact ⟨other, List.mem_map.mpr ⟨other, hother, Slot.fill_of_assigned hassigned⟩, hkey⟩
  · obtain ⟨target, htarget, htargetKey, htargetOpen⟩ := hopen s hs
    refine ⟨target.fill suggestions, List.mem_map_of_mem htarget, ?_⟩
    rw [Slot.fill_of_mem hdistinct hs htargetKey.symm htargetOpen, ← hshared.resolve_left (hnone s hs)]
    rfl

/-- Nothing is proposed where every field that would do is supplied. -/
theorem propose_eq_of_taken (h : ∀ slot field, Compatible score least slots fields slot field →
    ∃ other ∈ slots, other.suppliedKey = some field.key) :
    propose score least slots fields = ⟨[], unassignedKeys slots⟩ := by
  have hnone : (propose score least slots fields).suggestions = [] := by
    refine List.eq_nil_iff_forall_not_mem.mpr fun s hs => ?_
    obtain ⟨⟨slot, field, hpair, rfl⟩, hfree⟩ := compatible_of_mem_propose hs
    obtain ⟨other, hother, hkey⟩ := h slot field hpair
    exact hfree other hother hkey
  have hunassigned : (propose score least slots fields).unassignedSlots = (slots.filter fun slot => !slot.isAssigned &&
      !(propose score least slots fields).suggestions.any (·.slotKey == slot.key)).map (·.key) := rfl
  rw [hnone] at hunassigned
  have hkeys : (propose score least slots fields).unassignedSlots = unassignedKeys slots := by
    simpa [unassignedKeys] using hunassigned
  rw [← hnone, ← hkeys]

/-- Where no two slots have one key, and a slot has a supplied key when it has a supplied name: all that is proposed is
    written, each proposal into its own open slot, and the slots that stay open are those that were reported, in order.
    A second pass over the filled slots proposes nothing and reports the same ones. -/
theorem apply_propose (score : Slot → DatasetField → Single) (least : Single) (fields : List DatasetField)
    (hkeys : (slots.map (·.key)).Nodup)
    (hsupplied : ∀ slot ∈ slots, slot.suppliedKey.isSome = slot.suppliedName.isSome) :
    let result := propose score least slots fields
    ∃ filled, result.apply slots = (result.suggestions.length, filled) ∧
      List.Forall₂ (Slot.Becomes result.suggestions) slots filled ∧
      unassignedKeys filled = result.unassignedSlots ∧
      propose score least filled fields = ⟨[], result.unassignedSlots⟩ := by
  intro result
  have hunassigned : unassignedKeys (slots.map (·.fill result.suggestions)) = result.unassignedSlots :=
    unassignedKeys_fill slots result.suggestions
  refine ⟨slots.map (·.fill result.suggestions), ?_, ?_, hunassigned, ?_⟩
  · exact applyAll_eq hkeys (distinct_propose score least slots fields) (areOpen_propose score least slots fields)
  · rw [List.forall₂_map_right_iff, List.forall₂_same]
    exact fun slot _ => slot.becomes_fill _
  · rw [propose_eq_of_taken fun slot field h => taken_fill hsupplied h, hunassigned]

/-- A slot that is assigned already, one that gets the only field left for it, and one that no field would do for. -/
theorem apply_propose_revenue :
    let slots : List Slot := [(Slot.new "__0__" "Sales" .numeric .measure).assign "r" "Revenue",
      .new "__1__" "Cost" .numeric .measure, .new "__2__" "Date" .dateTime .column]
    let fields : List DatasetField :=
      [⟨"r", "Revenue", .numeric, .measure, false⟩, ⟨"c", "Costs", .numeric, .measure, false⟩]
    let result := propose (fun _ _ => .one) defaultConfidence slots fields
    (slots.map (·.key)).Nodup ∧ (∀ slot ∈ slots, slot.suppliedKey.isSome = slot.suppliedName.isSome) ∧
      result.suggestions = [⟨"__1__", "c", "Costs", .one⟩] ∧
      ∃ filled, result.apply slots = (1, filled) ∧ unassignedKeys filled = ["__2__"] ∧
        propose (fun _ _ => .one) defaultConfidence filled fields = ⟨[], ["__2__"]⟩ := by
  intro slots fields result
  have hkeys : (slots.map (·.key)).Nodup := by decide
  have hsupplied : ∀ slot ∈ slots, slot.suppliedKey.isSome = slot.suppliedName.isSome := by decide
  have hsuggestions : result.suggestions = [⟨"__1__", "c", "Costs", .one⟩] := by
    rw [suggestions_propose, rank, List.mergeSort_of_pairwise] <;> decide
  have hunassigned : result.unassignedSlots = ["__2__"] := by
    show (slots.filter fun slot => !slot.isAssigned && !result.suggestions.any (·.slotKey == slot.key)).map (·.key) = _
    rw [hsuggestions]
    decide
  obtain ⟨filled, happly, -, hopen, hagain⟩ := apply_propose (fun _ _ => .one) defaultConfidence fields hkeys hsupplied
  refine ⟨hkeys, hsupplied, hsuggestions, filled, ?_, ?_, ?_⟩
  · rw [happly, hsuggestions]
    rfl
  · rw [hopen, hunassigned]
  · rw [hagain, hunassigned]

end FieldRemap
