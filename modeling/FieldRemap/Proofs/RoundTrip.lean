/-
  FieldRemap.Proofs.RoundTrip — a tokenized text filled with the names it was made from.

  Each slot of a registry is given the name of the entry that has its token. Filling the
  tokenized text from these slots gives every reference the name it had before.
-/

import FieldRemap.Proofs.Filling

namespace FieldRemap

open Passage Retarget

/-- The slots of a registry, each with the name of the entry that has its token. -/
theorem supplied_assignFromTracked {registry : Registry} (hdistinct : registry.DistinctTokens)
    (fields : List DatasetField) :
    supplied (assignFromTracked (buildSlots registry fields) registry) = registry.supplies (·.2.name) := by
  obtain ⟨slot, hslots, hkey⟩ := exists_buildSlots registry fields
  rw [hslots, assignFromTracked, List.map_map]
  apply supplied_map
  intro x hx
  simp only [Function.comp_apply, hkey, Registry.findByPlaceholder?_eq hdistinct hx]
  exact ⟨hkey x, rfl⟩

/-- Redirecting the references of a layout back to the names they had gives the text it was made of. -/
theorem target_refill_old {tail : List Char} {context : Context} {ps : List Passage}
    (h : Woven tail context ps) :
    target tail (ps.map (refill Passage.old)) = source tail ps := by
  induction h with
  | nil => rfl
  | cons _ hadmits _ _ _ ih =>
    simp only [List.map_cons, target_cons, source_cons, ih, refill, Form.rewrap, hadmits, if_true]

/-- Filling a tokenized text with the names of the entries that have its tokens gives the text that was
    tokenized, whatever fields the slots take their types from. -/
theorem remap_assignFromTracked (specText : String) (knownFields fields : List DatasetField)
    (previousTrackedFields : Registry) (hasDrilldown reset isRemap : Bool)
    (h : Context.outside.nests specText.toList = true) :
    let registry := (track { specText, knownFields, previousTrackedFields, hasDrilldown, reset }).trackedFields
    remap {
      tokenizedSpecText := tokenize { specText, trackedFields := registry, isRemap }
      remapFields := assignFromTracked (buildSlots registry fields) registry } = specText := by
  intro registry
  have hs : registry.Sound specText.toList := sound_track rfl h
  obtain ⟨ps, tail, hps, hout⟩ := exists_tokenized hs h isRemap
  have hfilled : ∀ p ∈ ps, Tokenized.Filled registry (·.2.name) p.new p.old := by
    intro p hp
    obtain ⟨token, entry, ending, hmem, hending, hold, hnew⟩ := hps.exists_token hp
    exact ⟨token, entry, ending, hmem, hending, hnew, hold⟩
  apply String.toList_inj.mp
  calc (remap _).toList
      = splice (target tail ps) (edits (gather (QuoteMap.lex (target tail ps)) (target tail ps) Convention.suffixes
          (registry.supplies (·.2.name)))) := by rw [toList_remap, hout, supplied_assignFromTracked hs.distinct]
    _ = target tail (ps.map (refill Passage.old)) := hps.splice_supplies hfilled
    _ = source tail ps := target_refill_old hps.woven
    _ = specText.toList := hps.source_eq

/-- A name that needs quotes, as a string, between escaped and single quotes and with a suffix, and one
    as an accessor, next to a token that is taken. -/
theorem remap_assignFromTracked_sales :
    let specText := "[\"Sales '24\",\"datum[\\\"Sales '24__highlight\\\"] + datum.Year + datum['Year']\",\"__0__\"]"
    let knownFields : List DatasetField :=
      [⟨"k", "Sales '24", .numeric, .measure, false⟩, ⟨"y", "Year", .text, .column, false⟩]
    let registry := (track { specText, knownFields }).trackedFields
    Context.outside.nests specText.toList = true ∧
      remap {
        tokenizedSpecText := tokenize { specText, trackedFields := registry, isRemap := true }
        remapFields := assignFromTracked (buildSlots registry knownFields) registry } = specText :=
  ⟨by decide, remap_assignFromTracked _ _ _ .empty false false true (by decide)⟩

end FieldRemap
