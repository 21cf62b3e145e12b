/-
  FieldRemap.Proofs.Wire — the JSON forms carry their values.

  What is written for a field, a convention, a registry, a slot or a request is decoded to it
  again. Counts and the indices of tokens have to be numbers of 64 bits, which are all that a
  pass counts with (`Registry.InRange`). A registry is decoded entry by entry: taking the
  entries by key changes nothing as they ascend (`latestByKey_of_ascending`), and putting each
  in its place gives the registry back (`Registry.ofEntries_entries`).
-/

import FieldRemap.Proofs.Decoding
import FieldRemap.Proofs.Registry
import FieldRemap.Wire.Request

namespace FieldRemap

variable {room : Nat}

/-! ## Fields and conventions -/

theorem DataType.carried (type : DataType) : Carried decode room type.toJson type :=
  .word (by decide) (List.mem_map.mpr ⟨type, by cases type <;> decide, rfl⟩)

theorem FieldRole.carried (role : FieldRole) : Carried decode room role.toJson role :=
  .word (by decide) (List.mem_map.mpr ⟨role, by cases role <;> decide, rfl⟩)

theorem SyntheticKind.carried (kind : SyntheticKind) : Carried decode room kind.toJson kind :=
  .word (by decide) (List.mem_map.mpr ⟨kind, by cases kind <;> decide, rfl⟩)

theorem DatasetField.carried (field : DatasetField) : Carried decode (room + 1) field.toJson field :=
  Record.yields_pure DatasetField.mk
    |>.required (.text field.key) (by decide)
    |>.required (.text field.name) (by decide)
    |>.required field.dataType.carried (by decide)
    |>.required field.role.carried (by decide)
    |>.defaulted (.bool field.isHighlightComponent) (by decide)
    |>.carried

/-- A value in which nothing is an empty object is decoded the same when it has been read as a whole. -/
theorem decodeWhole_of_carried {α : Type} {decode : Draft → Except JsonFault α} {json : Json} {value : α}
    (h : Carried decode room json value) (hwhole : Draft.ofWhole json = Draft.ofJson json) :
    decodeWhole decode json = .ok value := by
  rw [decodeWhole, hwhole, h.reads]

/-- The tag stands first; what follows it is read as a whole and is the content that the tag asks for. -/
theorem Convention.carried (convention : Convention) : Carried decode (room + 1) convention.toJson convention := by
  refine ⟨by cases convention <;> rfl, ?_⟩
  cases convention with
  | reserved name kind =>
    have hcontent : Carried ConventionForm.reserved.content.decode 1
        (.object [("name", .text name), ("kind", kind.toJson)]) (.reserved name kind) :=
      Record.yields_pure Convention.reserved
        |>.required (.text name) (by decide)
        |>.required kind.carried (by decide)
        |>.carried
    exact decodeWhole_of_carried hcontent rfl
  | derived suffix kind =>
    have hcontent : Carried ConventionForm.suffix.content.decode 1
        (.object [("suffix", .text suffix), ("kind", kind.toJson)]) (.derived suffix kind) :=
      Record.yields_pure Convention.derived
        |>.required (.text suffix) (by decide)
        |>.required kind.carried (by decide)
        |>.carried
    exact decodeWhole_of_carried hcontent rfl

/-! ## Tokens and counts -/

theorem Placeholder.carried {token : Placeholder} (h : token.index < indexLimit) :
    Carried decode room token.toJson token := by
  refine ⟨rfl, ?_⟩
  simp only [toJson, Draft.ofJson, decode, Draft.decodeText, Except.bind, parse?_eq_some.mpr ⟨rfl, h⟩]

theorem UsageKind.lookUpWord_name (kind : UsageKind) : Draft.lookUpWord words kind.name = .ok kind :=
  Draft.lookUpWord_of_mem (by decide) (List.mem_map.mpr ⟨kind, by cases kind <;> decide, rfl⟩)

namespace Usages

/-- The counts are those that are recorded. -/
theorem count_eq_of_mem_toList {usages : Usages} {kind : UsageKind} {n : Nat} (h : (kind, n) ∈ usages.toList) :
    usages.count kind = n := by
  obtain ⟨other, -, hother⟩ := List.mem_filterMap.mp h
  obtain ⟨m, hm, heq⟩ := Option.map_eq_some_iff.mp hother
  obtain ⟨rfl, rfl⟩ := Prod.mk.inj heq
  rw [count, hm, Option.getD_some]

/-- Recording the counts of a list one by one gives the usages whose list it is. -/
theorem foldl_toList (usages : Usages) : usages.toList.foldl (fun usages x => usages.set x.1 x.2) {} = usages := by
  obtain ⟨direct, value, comparator, status, selection, row⟩ := usages
  cases direct <;> cases value <;> cases comparator <;> cases status <;> cases selection <;> cases row <;> rfl

theorem carried {usages : Usages} (h : ∀ kind, usages.count kind < wordLimit) :
    Carried decode (room + 1) usages.toJson usages := by
  have hentries : Carried (Draft.decodeEntries (Draft.lookUpWord UsageKind.words) Draft.decodeCount) (room + 1)
      usages.toJson (usages.toList.map fun x => (x.1, x.2)) := by
    refine Carried.entries (fun x _ => UsageKind.lookUpWord_name x.1) fun x hx => .count ?_
    rw [← count_eq_of_mem_toList hx]
    exact h x.1
  have hmap := hentries.map fun entries => entries.foldl (fun usages x => usages.set x.1 x.2) ({} : Usages)
  rwa [List.map_id'', foldl_toList] at hmap
  intro x
  rfl

end Usages

/-! ## Registries -/

structure TrackedEntry.InRange (entry : TrackedEntry) : Prop where
  matchCount : entry.matchCount < wordLimit
  usages : ∀ kind, entry.usages.count kind < wordLimit
  placeholder : ∀ token ∈ entry.placeholder, token.index < Placeholder.indexLimit

def Registry.InRange (registry : Registry) : Prop :=
  ∀ entry ∈ registry.entries, entry.InRange

theorem TrackedEntry.carried {entry : TrackedEntry} (h : entry.InRange) :
    Carried decode (room + 2) entry.toJson entry := by
  have hyields : shape.Yields (room + 1) _ entry := Record.yields_pure TrackedEntry.mk
    |>.required (.text entry.fieldKey) (by decide)
    |>.required (.text entry.name) (by decide)
    |>.optional (fun token htoken => Placeholder.carried (h.placeholder token htoken)) (by decide)
    |>.required (.count h.matchCount) (by decide)
    |>.defaulted (Usages.carried h.usages) (by decide)
  obtain ⟨fieldKey, name, placeholder, matchCount, usages⟩ := entry
  cases placeholder with
  | none => exact hyields.carried
  | some token => exact hyields.carried

theorem key_ne_of_lt {a b : String} (h : a < b) : a ≠ b := by
  rintro rfl
  exact String.lt_irrefl a h

theorem latest_of_distinct {α : Type} {members : List (String × α)} (h : members.Pairwise (fun a b => a.1 ≠ b.1)) :
    latest members = members := by
  induction members with
  | nil => rfl
  | cons member members ih =>
    obtain ⟨hmember, hmembers⟩ := List.pairwise_cons.mp h
    have hnone : members.any (·.1 == member.1) = false := by
      rw [List.any_eq_false]
      intro other hother heq
      exact hmember other hother (beq_iff_eq.mp heq).symm
    rw [latest, hnone, ih hmembers]
    rfl

/-- Members in ascending order of their keys are each the only one of its key, and in order. -/
theorem latestByKey_of_ascending {α : Type} {members : List (String × α)}
    (h : members.Pairwise (fun a b => a.1 < b.1)) : latestByKey members = members := by
  rw [latestByKey, latest_of_distinct (h.imp key_ne_of_lt)]
  refine List.mergeSort_of_pairwise (h.imp ?_)
  intro a b hlt
  exact decide_eq_true (String.not_lt.mp (String.lt_asymm hlt))

/-- An entry behind all others in key order is put behind them. -/
theorem insertByKey_of_forall_lt {entry : TrackedEntry} {entries : List TrackedEntry}
    (h : ∀ other ∈ entries, other.fieldKey < entry.fieldKey) : insertByKey entry entries = entries ++ [entry] := by
  induction entries with
  | nil => rfl
  | cons other rest ih =>
    obtain ⟨hother, hrest⟩ := List.forall_mem_cons.mp h
    rw [insertByKey, if_neg (String.lt_asymm hother), if_neg (key_ne_of_lt hother).symm, ih hrest,
      List.cons_append]

namespace Registry

theorem eq_of_entries {a b : Registry} (h : a.entries = b.entries) : a = b := by
  obtain ⟨entries, _, _⟩ := a
  obtain ⟨others, _, _⟩ := b
  obtain rfl : entries = others := h
  rfl

theorem entries_foldl_insert {registry : Registry} {entries : List TrackedEntry}
    (hascending : (registry.entries ++ entries).Pairwise (fun a b => a.fieldKey < b.fieldKey))
    (hmatched : ∀ entry ∈ entries, 0 < entry.matchCount) :
    (entries.foldl insert registry).entries = registry.entries ++ entries := by
  induction entries generalizing registry with
  | nil => simp
  | cons entry rest ih =>
    obtain ⟨hentry, hrest⟩ := List.forall_mem_cons.mp hmatched
    have hinsert : (registry.insert entry).entries = registry.entries ++ [entry] := by
      rw [entries_insert hentry]
      refine insertByKey_of_forall_lt fun other hother => ?_
      exact (List.pairwise_append.mp hascending).2.2 other hother entry List.mem_cons_self
    have hall := @ih (registry.insert entry) (by rwa [hinsert, List.append_assoc]) hrest
    rwa [hinsert, List.append_assoc] at hall

/-- A registry is made again of its entries. -/
theorem ofEntries_entries (registry : Registry) : ofEntries registry.entries = registry :=
  eq_of_entries (entries_foldl_insert registry.ascending registry.matched)

theorem carried {registry : Registry} (h : registry.InRange) : Carried decode (room + 3) registry.toJson registry := by
  have hentries : Carried (Draft.decodeEntries Except.ok TrackedEntry.decode) (room + 3) registry.toJson
      (registry.entries.map fun entry => (entry.fieldKey, entry)) :=
    Carried.entries (fun _ _ => rfl) fun entry hentry => TrackedEntry.carried (h entry hentry)
  have hmap := hentries.map fun members => Registry.ofEntries ((latestByKey members).map (·.2))
  have hascending : (registry.entries.map fun entry => (entry.fieldKey, entry)).Pairwise (fun a b => a.1 < b.1) :=
    List.pairwise_map.mpr registry.ascending
  have hvalues : (registry.entries.map fun entry => (entry.fieldKey, entry)).map (·.2) = registry.entries := by
    simp [Function.comp_def]
  rwa [latestByKey_of_ascending hascending, hvalues, ofEntries_entries] at hmap

end Registry

theorem TrackedDrilldown.carried (drilldown : TrackedDrilldown) :
    Carried decode (room + 1) drilldown.toJson drilldown :=
  Record.yields_pure TrackedDrilldown.mk
    |>.required (.bool drilldown.isCurrent) (by decide)
    |>.required (.bool drilldown.isMappingRequired) (by decide)
    |>.carried

/-! ## Slots -/

theorem Slot.carried (slot : Slot) : Carried decode (room + 1) slot.toJson slot := by
  have hyields : shape.Yields room _ slot := Record.yields_pure Slot.mk
    |>.required (.text slot.key) (by decide)
    |>.required (.text slot.name) (by decide)
    |>.defaulted (.text slot.namePlaceholder) (by decide)
    |>.defaulted (.text slot.description) (by decide)
    |>.required slot.dataType.carried (by decide)
    |>.required slot.role.carried (by decide)
    |>.optional (fun key _ => .text key) (by decide)
    |>.optional (fun name _ => .text name) (by decide)
  obtain ⟨key, name, namePlaceholder, description, dataType, role, suppliedKey, suppliedName⟩ := slot
  cases suppliedKey <;> cases suppliedName <;> exact hyields.carried

/-! ## Requests -/

theorem TrackingRequest.carried {request : TrackingRequest} (h : request.previousTrackedFields.InRange) :
    Carried decode (room + 4) request.toJson request :=
  Record.yields_pure TrackingRequest.mk
    |>.required (.text request.specText) (by decide)
    |>.required (.list fun field _ => field.carried) (by decide)
    |>.defaulted (Registry.carried h) (by decide)
    |>.defaulted (.bool request.hasDrilldown) (by decide)
    |>.defaulted (.list fun convention _ => convention.carried) (by decide)
    |>.defaulted (.bool request.reset) (by decide)
    |>.carried

theorem TrackingResponse.carried {response : TrackingResponse} (h : response.trackedFields.InRange) :
    Carried decode (room + 4) response.toJson response :=
  Record.yields_pure TrackingResponse.mk
    |>.required (Registry.carried h) (by decide)
    |>.required response.trackedDrilldown.carried (by decide)
    |>.carried

theorem TokenizationRequest.carried {request : TokenizationRequest} (h : request.trackedFields.InRange) :
    Carried decode (room + 4) request.toJson request :=
  Record.yields_pure TokenizationRequest.mk
    |>.required (.text request.specText) (by decide)
    |>.required (Registry.carried h) (by decide)
    |>.defaulted (.list fun convention _ => convention.carried) (by decide)
    |>.defaulted (.bool request.isRemap) (by decide)
    |>.carried

theorem RemappingRequest.carried {request : RemappingRequest} (h : request.trackedFields.InRange) :
    Carried decode (room + 4) request.toJson request :=
  Record.yields_pure RemappingRequest.mk
    |>.required (.text request.tokenizedSpecText) (by decide)
    |>.required (.list fun slot _ => slot.carried) (by decide)
    |>.defaulted (Registry.carried h) (by decide)
    |>.defaulted (.list fun convention _ => convention.carried) (by decide)
    |>.carried

end FieldRemap
