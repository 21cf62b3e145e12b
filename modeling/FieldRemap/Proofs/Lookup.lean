/-
  FieldRemap.Proofs.Lookup — slots that are filled through a registry.

  With a registry a slot's key is looked up as the key of a field before it is taken for the
  token itself. A slot keyed by a token finds an entry only if a field is keyed by that token,
  and keeps it when the entry is the token's own (`Registry.KeysApart.token_eq`). Filling a
  template through its registry is then filling it without one (`remap_trackedFields`).

  The tokens of a template are checked against the names of the fields but not against their
  keys: where a field is keyed by the token of another one, that one's slot is filled in the
  wrong place (`remap_keyed_by_token`).
-/

import FieldRemap.Proofs.Filling

namespace FieldRemap

/-- No entry that has a token is keyed by the token of another one. -/
def Registry.KeysApart (registry : Registry) : Prop :=
  ∀ x ∈ registry.byPlaceholder, ∀ y ∈ registry.byPlaceholder, x.2.fieldKey = y.1.text → x = y

namespace Registry

variable {registry : Registry} {token : Placeholder} {entry : TrackedEntry} {key : String}

theorem get?_eq_some (h : registry.get? key = some entry) : entry ∈ registry.entries ∧ entry.fieldKey = key :=
  ⟨List.mem_of_find?_eq_some h, by simpa using List.find?_some h⟩

/-- A slot keyed by a token has that token, whatever else it is filled from. -/
theorem KeysApart.token_eq (h : registry.KeysApart) (hmem : (token, entry) ∈ registry.byPlaceholder) {slot : Slot}
    (hkey : slot.key = token.text) : Remap.token registry slot = slot.key := by
  unfold Remap.token
  split
  · next found hfound =>
    obtain ⟨other, hget, hplaceholder⟩ := Option.bind_eq_some_iff.mp hfound
    obtain ⟨hother, hfield⟩ := get?_eq_some hget
    have heq := h (found, other) (mem_byPlaceholder.mpr ⟨hother, hplaceholder⟩) (token, entry) hmem (hfield.trans hkey)
    rw [hkey, (Prod.mk.inj heq).1]
  · rfl

/-- Keys that are written like no token are apart from the tokens. -/
theorem keysApart_of_ne (h : ∀ entry ∈ registry.entries, ∀ token : Placeholder, entry.fieldKey ≠ token.text) :
    registry.KeysApart := by
  intro x hx y _ hkey
  exact absurd hkey (h x.2 (mem_byPlaceholder.mp hx).1 y.1)

/-- An entry of a tracked text is keyed like one of the known fields. -/
theorem exists_field_of_mem_track {request : TrackingRequest} (h : entry ∈ (track request).trackedFields.entries) :
    ∃ field ∈ request.knownFields, entry.fieldKey = field.key := by
  rcases Track.trackedFields_eq request with heq | heq <;> rw [heq] at h
  · cases h
  · have hkey : entry.fieldKey ∈ (Track.passEntries request).map (·.fieldKey) :=
      List.mem_map_of_mem (mem_of_mem_ofEntries h)
    rw [Track.map_fieldKey_passEntries] at hkey
    obtain ⟨found, hfound, hfield⟩ := List.mem_map.mp hkey
    obtain ⟨_, _, x, hx, hcounts⟩ := Track.counts_of_mem_entries hfound
    exact ⟨x.1, List.fst_mem_of_mem_zipIdx hx, hfield.symm.trans hcounts.key⟩

end Registry

/-- Where every slot has its key for a token the registry makes no difference. -/
theorem remap_eq_of_token_eq {request : RemappingRequest}
    (h : ∀ slot ∈ request.remapFields, Remap.token request.trackedFields slot = slot.key) :
    remap request = remap { request with trackedFields := .empty } := by
  have hrenames : request.renames = { request with trackedFields := .empty }.renames :=
    List.filterMap_congr fun slot hslot => by rw [h slot hslot]; rfl
  have hedits : Remap.edits request = Remap.edits { request with trackedFields := .empty } := by
    rw [Remap.edits_eq, Remap.edits_eq, hrenames]
  rw [remap, remap, hedits]

/-- A template filled through its own registry, from slots keyed like those it was made with, is filled as
    without one, unless a field that has a token is keyed by the token of another field. -/
theorem remap_trackedFields (specText : String) (knownFields : List DatasetField) (information : TemplateInformation)
    (slots : List Slot) (supplementaryReplacers : List Convention) :
    let template := exportTemplate specText knownFields information
    (∀ slot ∈ slots, ∃ built ∈ template.usermeta.dataset, slot.key = built.key) →
    template.trackedFields.KeysApart →
    remap {
      tokenizedSpecText := template.specText
      remapFields := slots
      trackedFields := template.trackedFields
      supplementaryReplacers } =
    remap { tokenizedSpecText := template.specText, remapFields := slots, supplementaryReplacers } := by
  intro template hslots hapart
  apply remap_eq_of_token_eq
  intro slot hslot
  obtain ⟨built, hbuilt, hkey⟩ := hslots slot hslot
  obtain ⟨make, hmake, hmakekey⟩ := exists_buildSlots template.trackedFields knownFields
  have hbuilt : built ∈ buildSlots template.trackedFields knownFields := hbuilt
  rw [hmake] at hbuilt
  obtain ⟨x, hx, rfl⟩ := List.mem_map.mp hbuilt
  exact hapart.token_eq hx (hkey.trans (hmakekey x))

/-- Two fields with keys that are no tokens, the names for both needing quotes. -/
theorem remap_trackedFields_sales :
    let specText := "[\"Sales\",\"datum.Year + datum['Sales__highlight']\"]"
    let knownFields : List DatasetField :=
      [⟨"k", "Sales", .numeric, .measure, false⟩, ⟨"y", "Year", .text, .column, false⟩]
    let template := exportTemplate specText knownFields {}
    let slots := template.usermeta.dataset.map fun slot => slot.assign "p" ("Net '" ++ slot.name)
    template.trackedFields.KeysApart ∧
      remap { tokenizedSpecText := template.specText, remapFields := slots, trackedFields := template.trackedFields } =
        remap { tokenizedSpecText := template.specText, remapFields := slots } := by
  intro specText knownFields template slots
  have hapart : template.trackedFields.KeysApart := by
    apply Registry.keysApart_of_ne
    intro entry hentry token hkey
    obtain ⟨field, hfield, heq⟩ := Registry.exists_field_of_mem_track hentry
    have hchars : field.key.toList = '_' :: ('_' :: token.digits ++ ['_', '_']) := by
      rw [← heq, hkey, Placeholder.toList_text, Placeholder.chars_eq_cons]
    have hfields : ∀ field ∈ knownFields, field.key.toList.head? ≠ some '_' := by decide
    exact hfields field hfield (by rw [hchars]; rfl)
  refine ⟨hapart, remap_trackedFields specText knownFields {} slots Convention.defaults (fun slot hslot => ?_) hapart⟩
  obtain ⟨built, hbuilt, rfl⟩ := List.mem_map.mp hslot
  exact ⟨built, hbuilt, rfl⟩

open Track in
/-- The field that has the first token is keyed by the second one: both slots fill the first token, and the
    second one stays in the text. -/
theorem remap_keyed_by_token :
    let knownFields : List DatasetField := [⟨"__1__", "A", .text, .column, false⟩, ⟨"k", "B", .text, .column, false⟩]
    let template := exportTemplate "[\"A\",\"B\"]" knownFields {}
    let slots := template.usermeta.dataset.map fun slot => slot.assign "p" ("Net " ++ slot.name)
    remap { tokenizedSpecText := template.specText, remapFields := slots, trackedFields := template.trackedFields } =
        "[\"Net A\",\"__1__\"]" ∧
      remap { tokenizedSpecText := template.specText, remapFields := slots } = "[\"Net A\",\"Net B\"]" := by
  intro knownFields template slots
  let a : TrackedEntry := ⟨"__1__", "A", some (.ofIndex 0), 1, { direct := some 1 }⟩
  let b : TrackedEntry := ⟨"k", "B", some (.ofIndex 1), 1, { direct := some 1 }⟩
  have hentries : template.trackedFields.entries = [a, b] := by
    show (track (exportTracking _ knownFields)).trackedFields.entries = _
    rw [trackedFields_of_pairwise] <;> decide +kernel
  have htokens : template.trackedFields.byPlaceholder = [(.ofIndex 0, a), (.ofIndex 1, b)] := by
    rw [Registry.byPlaceholder_of_pairwise] <;> rw [hentries] <;> decide +kernel
  have htext : template.specText = "[\"__0__\",\"__1__\"]" := by
    show String.ofList (splice _ (Retarget.edits (template.trackedFields.byPlaceholder.flatMap _))) = _
    rw [htokens, Retarget.edits, Candidate.arbitrate_of_pairwise] <;> decide +kernel
  have hslots : slots = [(Slot.new "__0__" "A" .text .column).assign "p" "Net A",
      (Slot.new "__1__" "B" .text .column).assign "p" "Net B"] := by
    show (buildSlots template.trackedFields knownFields).map _ = _
    rw [buildSlots, htokens]
    decide +kernel
  rw [hslots, htext]
  constructor
  · rw [remap, Remap.edits, Retarget.edits, Candidate.arbitrate_of_pairwise] <;>
    · simp only [Remap.token, Registry.get?, hentries]
      decide +kernel
  · rw [remap, Remap.edits, Retarget.edits, Candidate.arbitrate_of_pairwise] <;> decide +kernel

end FieldRemap
