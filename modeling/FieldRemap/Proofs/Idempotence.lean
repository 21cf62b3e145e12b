/-
  FieldRemap.Proofs.Idempotence — tokenizing a tokenized text again changes nothing.

  The second pass has no candidate: no entry of the registry is referred to in the tokenized
  text, neither by its name nor by a name derived from it.
-/

import FieldRemap.Proofs.Tokenization

namespace FieldRemap

open Passage Retarget

/-- In a tokenized text there is nothing left to redirect. -/
theorem Tokenized.gather_eq_nil {registry : Registry} {suffixes : List String} {text tail : List Char}
    {ps : List Passage}
    (h : Tokenized registry suffixes text ps tail) :
    gather (QuoteMap.lex (target tail ps)) (target tail ps) suffixes registry.renames = [] := by
  rw [List.eq_nil_iff_forall_not_mem]
  intro c hc
  obtain ⟨rename, hrename, ending, priority, hending, r, hr, rfl⟩ := mem_gather.mp hc
  obtain ⟨⟨token, entry⟩, hmem, rfl⟩ := List.mem_map.mp hrename
  rw [← h.source_tokens Passage.old, FieldRemap.mem_findReferences (h.nests_tokens _)] at hr
  obtain ⟨m, hname, _⟩ := hr
  exact h.not_mentioned hmem hending m (by rw [hname, String.toList_append])

/-- Tokenizing with the registry that tracking a text gives, a second time in the same mode, returns
    the tokenized text unchanged. -/
theorem tokenize_tokenize (specText : String) (knownFields : List DatasetField)
    (previousTrackedFields : Registry)
    (hasDrilldown reset isRemap : Bool) (h : Context.outside.nests specText.toList = true) :
    let registry := (track { specText, knownFields, previousTrackedFields, hasDrilldown, reset }).trackedFields
    let tokenized := tokenize { specText, trackedFields := registry, isRemap }
    tokenize { specText := tokenized, trackedFields := registry, isRemap } = tokenized := by
  intro registry tokenized
  have hs : registry.Sound specText.toList := sound_track rfl h
  obtain ⟨ps, tail, hps, hout⟩ := exists_tokenized hs h isRemap
  have hout : tokenized.toList = target tail ps := hout
  apply String.toList_inj.mp
  rw [toList_tokenize, hout, hps.gather_eq_nil, edits_nil]
  rfl

/-- A name as a string, between single quotes, as an accessor and with a suffix, next to a token that is taken. -/
theorem tokenize_tokenize_sales :
    let specText := "[\"Sales\",\"datum['Sales'] + datum.Sales__highlight\",\"__0__\"]"
    let knownFields : List DatasetField := [⟨"k", "Sales", .numeric, .measure, false⟩]
    let registry := (track { specText, knownFields, reset := true }).trackedFields
    let tokenized := tokenize { specText, trackedFields := registry, isRemap := true }
    Context.outside.nests specText.toList = true ∧
      tokenize { specText := tokenized, trackedFields := registry, isRemap := true } = tokenized :=
  ⟨by decide, tokenize_tokenize _ _ .empty false true true (by decide)⟩

end FieldRemap
