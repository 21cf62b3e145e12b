/-
  FieldRemap.Proofs.Filling — the tokens of a tokenized text redirected to supplied names.

  Every reference of a tokenized text that was redirected to a token is redirected again, with
  its ending, to what is supplied for the token; nothing else is (`Tokenized.splice_supplies`).
  Slots that carry the tokens of a registry fill a text that way (`toList_remap`).
-/

import FieldRemap.Export
import FieldRemap.Proofs.Tokenization

namespace FieldRemap

open Passage Retarget

/-! ## Slots -/

/-- The keys of the slots that are assigned, each with the name supplied for it. -/
def supplied (slots : List Slot) : List (String × String) :=
  slots.filterMap fun slot => slot.suppliedName.map (slot.key, ·)

theorem supplied_map {α : Type} {xs : List α} {slot : α → Slot} {key name : α → String}
    (h : ∀ x ∈ xs, (slot x).key = key x ∧ (slot x).suppliedName = some (name x)) :
    supplied (xs.map slot) = xs.map fun x => (key x, name x) := by
  induction xs with
  | nil => rfl
  | cons x xs ih =>
    obtain ⟨⟨hkey, hname⟩, hxs⟩ := List.forall_mem_cons.mp h
    have ih := ih hxs
    rw [supplied] at ih ⊢
    simp only [List.map_cons, List.filterMap_cons, hkey, hname, Option.map_some, ih]

/-- There is a slot for each token of a registry, under the token as it is written. -/
theorem exists_buildSlots (registry : Registry) (fields : List DatasetField) :
    ∃ slot : Placeholder × TrackedEntry → Slot,
      buildSlots registry fields = registry.byPlaceholder.map slot ∧ ∀ x, (slot x).key = x.1.text := by
  refine ⟨_, rfl, fun x => ?_⟩
  simp only
  split <;> rfl

def RemappingRequest.renames (request : RemappingRequest) : List (String × String) :=
  request.remapFields.filterMap fun slot => slot.suppliedName.map (Remap.token request.trackedFields slot, ·)

theorem Remap.edits_eq (request : RemappingRequest) :
    Remap.edits request = Retarget.edits (gather (QuoteMap.lex request.tokenizedSpecText.toList)
      request.tokenizedSpecText.toList (request.supplementaryReplacers.filterMap (·.suffix?)) request.renames) := by
  rw [Remap.edits, gather, RemappingRequest.renames]
  congr 1
  induction request.remapFields with
  | nil => rfl
  | cons slot slots ih =>
    rw [List.flatMap_cons, ih, List.filterMap_cons]
    cases slot.suppliedName <;> rfl

/-- Without a registry the tokens of a text are the keys of the slots. -/
theorem toList_remap (tokenizedSpecText : String) (slots : List Slot) :
    (remap { tokenizedSpecText, remapFields := slots }).toList = splice tokenizedSpecText.toList
      (Retarget.edits (gather (QuoteMap.lex tokenizedSpecText.toList) tokenizedSpecText.toList Convention.suffixes
        (supplied slots))) := by
  rw [remap, String.toList_ofList, Remap.edits_eq]
  rfl

/-! ## Filling a text -/

def Registry.supplies (registry : Registry) (supply : Placeholder × TrackedEntry → String) : List
    (String × String) :=
  registry.byPlaceholder.map fun x => (x.1.text, supply x)

/-- Slots made of the tokens of a registry, all assigned, supply a name for each token. -/
theorem supplied_assign {registry : Registry} {fields : List DatasetField} {slot : Placeholder × TrackedEntry → Slot}
    (hslots : buildSlots registry fields = registry.byPlaceholder.map slot) (hkey : ∀ x, (slot x).key = x.1.text)
    (objectKey objectName : Slot → String) :
    supplied ((buildSlots registry fields).map fun slot => slot.assign (objectKey slot) (objectName slot)) =
      registry.supplies fun x => objectName (slot x) := by
  rw [hslots, List.map_map]
  exact supplied_map fun x _ => ⟨hkey x, rfl⟩

/-- Slots that are all assigned supply a name for each token. -/
theorem exists_supplies (registry : Registry) (fields : List DatasetField)
    (objectKey objectName : Slot → String) :
    ∃ supply, supplied ((buildSlots registry fields).map fun slot => slot.assign (objectKey slot) (objectName slot)) =
        registry.supplies supply ∧
      ∀ x ∈ registry.byPlaceholder, ∃ slot ∈ buildSlots registry fields, supply x = objectName slot := by
  obtain ⟨slot, hslots, hkey⟩ := exists_buildSlots registry fields
  exact ⟨fun x => objectName (slot x), supplied_assign hslots hkey objectKey objectName,
    fun x hx => ⟨slot x, hslots ▸ List.mem_map_of_mem hx, rfl⟩⟩

namespace Tokenized

open Convention

variable {registry : Registry} {suffixes : List String} {text tail : List Char} {ps : List Passage}
  {supply : Placeholder × TrackedEntry → String} {next : Passage → List Char}

theorem exists_ending {ending : List Char} (h : ending ∈ endings) :
    ∃ suffix priority, Ending Convention.suffixes suffix priority ∧ suffix.toList = ending := by
  rcases List.mem_cons.mp h with rfl | h
  · exact ⟨"", _, .own, rfl⟩
  · obtain ⟨suffix, hmem, rfl⟩ := List.mem_map.mp h
    exact ⟨suffix, _, .suffix hmem, rfl⟩

/-- The passage leads to a token with an ending, and is next given what is supplied for the token, with
    the same ending. -/
def Filled (registry : Registry) (supply : Placeholder × TrackedEntry → String) (new next : List Char) : Prop :=
  ∃ token entry ending, (token, entry) ∈ registry.byPlaceholder ∧ ending ∈ endings ∧
    new = token.chars ++ ending ∧ next = (supply (token, entry)).toList ++ ending

/-- What a token with an ending is filled with is fixed. -/
theorem Filled.eq (hs : registry.Sound text) {new a b : List Char} (ha : Filled registry supply new a)
    (hb : Filled registry supply new b) : a = b := by
  obtain ⟨token, entry, ending, hmem, hending, hnew, rfl⟩ := ha
  obtain ⟨token', entry', ending', hmem', hending', hnew', rfl⟩ := hb
  obtain ⟨rfl, rfl⟩ := Placeholder.append_ending_inj hending hending' (hnew.symm.trans hnew')
  rw [hs.entry_eq hmem hmem']

/-- Every redirected reference is filled with some name. -/
theorem exists_next (h : Tokenized registry suffixes text ps tail)
    (supply : Placeholder × TrackedEntry → String) :
    ∃ next : Passage → List Char, ∀ p ∈ ps, Filled registry supply p.new (next p) := by
  have hexists : ∀ p : Passage, ∃ name, p ∈ ps → Filled registry supply p.new name := by
    intro p
    by_cases hp : p ∈ ps
    · obtain ⟨token, entry, ending, hmem, hending, _, hnew⟩ := h.exists_token hp
      exact ⟨_, fun _ => ⟨token, entry, ending, hmem, hending, hnew, rfl⟩⟩
    · exact ⟨[], fun h => absurd h hp⟩
  choose next hnext using hexists
  exact ⟨next, hnext⟩

/-- A candidate stands on a redirected reference, and redirects it to what fills it. -/
theorem exists_located_of_gather (h : Tokenized registry suffixes text ps tail)
    (hnext : ∀ p ∈ ps, Filled registry supply p.new (next p)) {c : Candidate Retarget}
    (hc : c ∈ gather (QuoteMap.lex (target tail ps)) (target tail ps) Convention.suffixes (registry.supplies supply)) :
    ∃ x ∈ located 0 (ps.map (refill next)), c.span = x.1.span ∧ c.value = (x.1, String.ofList x.2.new) := by
  obtain ⟨rename, hrename, suffix, priority, hsuffix, r, hr, rfl⟩ := mem_gather.mp hc
  obtain ⟨⟨token, entry⟩, hmem, rfl⟩ := List.mem_map.mp hrename
  have hending := mem_endings (fun _ h => h) hsuffix
  rw [String.toList_append, Placeholder.toList_text] at hr
  obtain ⟨x, hx, rfl, hold⟩ := (h.mem_findReferences next hmem hending).mp hr
  refine ⟨x, hx, rfl, ?_⟩
  obtain ⟨p, hp, hrefill⟩ := List.mem_map.mp (mem_of_mem_located hx)
  rw [← hrefill] at hold ⊢
  have hnew := (hnext p hp).eq h.sound ⟨token, entry, suffix.toList, hmem, hending, hold, rfl⟩
  simp only [refill, hnew, ← String.toList_append, String.ofList_toList]

/-- Every redirected reference has a candidate. -/
theorem exists_gather_of_located (h : Tokenized registry suffixes text ps tail)
    (hnext : ∀ p ∈ ps, Filled registry supply p.new (next p)) {x : Reference × Passage}
    (hx : x ∈ located 0 (ps.map (refill next))) :
    ∃ c ∈ gather (QuoteMap.lex (target tail ps)) (target tail ps) Convention.suffixes (registry.supplies supply),
      c.span = x.1.span := by
  obtain ⟨p, hp, hrefill⟩ := List.mem_map.mp (mem_of_mem_located hx)
  obtain ⟨token, entry, ending, hmem, hending, hnew, _⟩ := hnext p hp
  have hr := (h.mem_findReferences next hmem hending).mpr ⟨x, hx, rfl, by rw [← hrefill]; exact hnew⟩
  obtain ⟨suffix, priority, hsuffix, rfl⟩ := exists_ending hending
  refine ⟨_, mem_gather.mpr ⟨_, List.mem_map.mpr ⟨_, hmem, rfl⟩, suffix, priority, hsuffix, x.1, ?_, rfl⟩, rfl⟩
  rw [String.toList_append, Placeholder.toList_text]
  exact hr

theorem splice_supplies (h : Tokenized registry suffixes text ps tail)
    (hnext : ∀ p ∈ ps, Filled registry supply p.new (next p)) :
    splice (target tail ps) (edits (gather (QuoteMap.lex (target tail ps)) (target tail ps) Convention.suffixes
      (registry.supplies supply))) = target tail (ps.map (refill next)) := by
  have hspans : ∀ x ∈ located 0 (ps.map (refill next)), x.1.span.start < x.1.span.stop := by
    intro x hx
    obtain ⟨front, p, back, heq, rfl⟩ := mem_located.mp hx
    have hwoven := h.woven_tokens next
    rw [heq] at hwoven
    obtain ⟨m, hof⟩ := hwoven.exists_mention
    rw [Nat.zero_add, ← hof.reference_eq]
    exact m.start_lt_stop
  have harbitrate := arbitrate_eq_located hspans (fun c hc => h.exists_located_of_gather hnext hc)
    fun x hx => h.exists_gather_of_located hnext hx
  have hedits : edits (gather (QuoteMap.lex (target tail ps)) (target tail ps) Convention.suffixes
      (registry.supplies supply)) =
      (located 0 (ps.map (refill next))).map fun x => x.1.redirect x.2.new := by
    have := congrArg (List.map fun y : Retarget => y.1.redirect y.2.toList) harbitrate
    rw [List.map_map, List.map_map] at this
    rw [edits]
    simpa only [Function.comp_def, String.toList_ofList] using this
  rw [hedits, ← h.source_tokens next, splice_located]

end Tokenized

end FieldRemap
