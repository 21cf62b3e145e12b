/-
  FieldRemap.Proofs.Tracking — what a registry says about the text it was made from.

  Every candidate of a field is a mention of the field's name or of a name derived from it
  (`mem_fieldCandidates`), every entry counts the hits of one field (`counts_of_mem_entries`),
  and the tokens of a registry are different and do not occur in the text, while each of its
  entries does (`sound_track`).
-/

import FieldRemap.Proofs.Allocation
import FieldRemap.Proofs.Arbitration
import FieldRemap.Proofs.Registry
import FieldRemap.Proofs.Search

namespace FieldRemap

namespace Usages

theorem count_record (usages : Usages) (kind kind' : UsageKind) :
    (usages.record kind).count kind' = usages.count kind' + if kind = kind' then 1 else 0 := by
  cases kind <;> cases kind' <;> rfl

theorem isSome_record (usages : Usages) (kind kind' : UsageKind) :
    ((usages.record kind).get? kind').isSome = true ↔ kind = kind' ∨ (usages.get? kind').isSome = true := by
  cases kind <;> cases kind' <;> simp [record, set, get?]

theorem primary?_eq_some {usages : Usages} {kind : UsageKind} (h : usages.primary? = some kind) :
    (usages.get? kind).isSome = true :=
  List.find?_some (p := fun kind => (usages.get? kind).isSome) h

theorem primary?_isSome {usages : Usages} {kind : UsageKind} (h : (usages.get? kind).isSome = true) :
    usages.primary?.isSome = true :=
  List.find?_isSome.mpr ⟨kind, by cases kind <;> decide, h⟩

end Usages

namespace Track

/-! ## Candidates -/

theorem mem_candidatesFor {α : Type} {quotes : QuoteMap} {text : List Char} {name : String} {priority : Nat}
    {value : Reference → α} {c : Candidate α} : c ∈ candidatesFor quotes text name priority value ↔
      ∃ r ∈ findReferences name.toList quotes text, c = ⟨r.span, priority, value r⟩ := by
  simp [candidatesFor, eq_comm]

/-- How a field of a given own usage is used under its name with an ending, and at which priority. -/
inductive Use (conventions : List Convention) (own : UsageKind) : String → Nat → UsageKind → Prop
  | own : Use conventions own "" literalPriority own
  | derived {convention : Convention} {suffix : String} {kind : UsageKind} : own = .direct → convention ∈ conventions →
      convention.suffix? = some suffix → convention.kind.usageKind? = some kind →
      Use conventions own suffix derivedPriority kind

theorem mem_fieldCandidates {conventions : List Convention} {quotes : QuoteMap} {text : List Char}
    {field : DatasetField} {index : Nat} {c : Candidate Hit} :
    c ∈ fieldCandidates conventions quotes text field index ↔ ∃ own, ownUsage? conventions field = some own ∧
      ∃ ending priority kind, Use conventions own ending priority kind ∧
        ∃ r ∈ findReferences (field.name ++ ending).toList quotes text, c = ⟨r.span, priority, ⟨index, kind⟩⟩ := by
  unfold fieldCandidates
  cases hown : ownUsage? conventions field with
  | none => simp
  | some own =>
    simp only [Option.some.injEq, exists_eq_left']
    constructor
    · intro h
      have hsplit : c ∈ candidatesFor quotes text field.name literalPriority (fun _ => Hit.mk index own) ∨
          own = .direct ∧ ∃ convention ∈ conventions, ∃ suffix kind, convention.suffix? = some suffix ∧
            convention.kind.usageKind? = some kind ∧
              c ∈ candidatesFor quotes text (field.name ++ suffix) derivedPriority (fun _ => Hit.mk index kind) := by
        split at h
        · next hdirect =>
          rcases List.mem_append.mp h with h | h
          · exact .inl h
          · obtain ⟨convention, hmem, h⟩ := List.mem_flatMap.mp h
            split at h
            · next name kind hname hkind =>
              obtain ⟨suffix, hsuffix, rfl⟩ := Option.map_eq_some_iff.mp hname
              exact .inr ⟨hdirect, convention, hmem, suffix, kind, hsuffix, hkind, h⟩
            · cases h
        · exact .inl h
      rcases hsplit with h | ⟨hdirect, convention, hmem, suffix, kind, hsuffix, hkind, h⟩
      · exact ⟨"", _, _, .own, by simpa using mem_candidatesFor.mp h⟩
      · exact ⟨suffix, _, _, .derived hdirect hmem hsuffix hkind, mem_candidatesFor.mp h⟩
    · intro h'
      obtain ⟨ending, priority, kind, huse, h⟩ := h'
      cases huse with
      | own =>
        have hmem := mem_candidatesFor.mpr (by simpa using h)
        split
        · exact List.mem_append_left _ hmem
        · exact hmem
      | @derived convention suffix kind hdirect hmem hsuffix hkind =>
        rw [if_pos hdirect]
        refine List.mem_append_right _ (List.mem_flatMap.mpr ⟨convention, hmem, ?_⟩)
        simp only [Convention.deriveName?, hsuffix, hkind, Option.map_some]
        exact mem_candidatesFor.mpr h

def allCandidates (conventions : List Convention) (text : List Char) (fields : List DatasetField) :
    List (Candidate Hit) :=
  fields.zipIdx.flatMap fun (field, index) => fieldCandidates conventions (QuoteMap.lex text) text field index

theorem mem_allCandidates {conventions : List Convention} {text : List Char} {fields : List DatasetField}
    {c : Candidate Hit} : c ∈ allCandidates conventions text fields ↔
      ∃ x ∈ fields.zipIdx, c ∈ fieldCandidates conventions (QuoteMap.lex text) text x.1 x.2 :=
  List.mem_flatMap

theorem field_eq_of_mem {conventions : List Convention} {quotes : QuoteMap} {text : List Char}
    {field : DatasetField}
    {index : Nat} {c : Candidate Hit} (h : c ∈ fieldCandidates conventions quotes text field index) :
    c.value.field = index := by
  obtain ⟨_, _, _, _, _, _, _, _, rfl⟩ := mem_fieldCandidates.mp h
  rfl

/-- Candidates are collected in the order of their fields. -/
theorem pairwise_allCandidates (conventions : List Convention) (text : List Char) (fields : List DatasetField) :
    (allCandidates conventions text fields).Pairwise (fun a b => a.value.field ≤ b.value.field) := by
  refine List.pairwise_flatMap.mpr ⟨fun x _ => ?_, ?_⟩
  · have hall : (fieldCandidates conventions (QuoteMap.lex text) text x.1 x.2).Pairwise (fun _ _ => True) :=
      List.pairwise_of_forall fun _ _ => trivial
    refine hall.imp_of_mem fun {a b} ha hb _ => ?_
    rw [field_eq_of_mem ha, field_eq_of_mem hb]
  · have hindices : fields.zipIdx.Pairwise (fun a b => a.2 < b.2) := by
      have := List.pairwise_lt_range' (s := 0) (n := fields.length)
      rw [← List.zipIdx_map_snd 0 fields, List.pairwise_map] at this
      exact this
    refine hindices.imp fun {x y} hlt a ha b hb => ?_
    rw [field_eq_of_mem ha, field_eq_of_mem hb]
    omega

theorem hits_eq (conventions : List Convention) (text : List Char) (fields : List DatasetField) :
    hits conventions text fields = (Candidate.arbitrate (allCandidates conventions text fields)).map (·.value) := rfl

/-! ## Entries -/

structure Counts (hits : List Hit) (field : DatasetField) (index : Nat) (entry : TrackedEntry) : Prop where
  key : entry.fieldKey = field.key
  name : entry.name = field.name
  used : ∃ hit ∈ hits, hit.field = index
  count : ∀ kind, entry.usages.count kind = hits.countP (fun hit => hit.field == index && hit.usage == kind)
  recorded : ∀ kind, (entry.usages.get? kind).isSome = true → ∃ hit ∈ hits, hit.field = index ∧ hit.usage = kind
  primary : entry.usages.primary?.isSome = true

theorem Counts.of_bare {hits : List Hit} {field : DatasetField} {index : Nat} {entry entry' : TrackedEntry}
    (h : Counts hits field index entry)
    (hbare : entry'.bare = entry.bare) : Counts hits field index entry' := by
  have hkey : entry'.fieldKey = entry.fieldKey := show entry'.bare.fieldKey = entry.bare.fieldKey by rw [hbare]
  have hname : entry'.name = entry.name := show entry'.bare.name = entry.bare.name by rw [hbare]
  have husages : entry'.usages = entry.usages := show entry'.bare.usages = entry.bare.usages by rw [hbare]
  exact ⟨hkey.trans h.key, hname.trans h.name, h.used, husages ▸ h.count, husages ▸ h.recorded, husages ▸ h.primary⟩

def recordAll (uses : List Hit) (entry : TrackedEntry) : TrackedEntry :=
  uses.foldl (fun entry hit => entry.record hit.usage) entry

theorem recordAll_spec (uses : List Hit) (entry : TrackedEntry) :
    (recordAll uses entry).fieldKey = entry.fieldKey ∧ (recordAll uses entry).name = entry.name ∧
      (recordAll uses entry).placeholder = entry.placeholder ∧
        (recordAll uses entry).matchCount = entry.matchCount + uses.length ∧
          ∀ kind, (recordAll uses entry).usages.count kind = entry.usages.count kind + uses.countP (·.usage == kind) ∧
            (((recordAll uses entry).usages.get? kind).isSome = true ↔
              (entry.usages.get? kind).isSome = true ∨ ∃ hit ∈ uses, hit.usage = kind) := by
  induction uses generalizing entry with
  | nil => simp [recordAll]
  | cons hit uses ih =>
    obtain ⟨hkey, hname, hplaceholder, hmatch, husages⟩ := ih (entry.record hit.usage)
    refine ⟨hkey, hname, hplaceholder, ?_, fun kind => ?_⟩
    · show (recordAll uses (entry.record hit.usage)).matchCount = _
      rw [hmatch]
      simp only [TrackedEntry.record, List.length_cons]
      omega
    · obtain ⟨hcount, hsome⟩ := husages kind
      show (recordAll uses (entry.record hit.usage)).usages.count kind = _ ∧
        (((recordAll uses (entry.record hit.usage)).usages.get? kind).isSome = true ↔ _)
      rw [hcount, hsome]
      simp only [TrackedEntry.record, Usages.count_record, Usages.isSome_record, List.countP_cons, List.mem_cons,
        exists_eq_or_imp, beq_iff_eq]
      exact ⟨by omega, by rw [or_comm (a := hit.usage = kind), or_assoc]⟩

theorem mem_entries {hits : List Hit} {fields : List DatasetField} {entry : TrackedEntry} :
    entry ∈ entries hits fields ↔ ∃ x ∈ fields.zipIdx, (∃ hit ∈ hits, hit.field = x.2) ∧
      entry = recordAll (hits.filter (·.field == x.2)) { fieldKey := x.1.key, name := x.1.name } := by
  simp only [entries, List.mem_filterMap, Option.ite_none_left_eq_some, Option.some.injEq, List.isEmpty_iff,
    List.filter_eq_nil_iff, beq_iff_eq, not_forall, not_not, exists_prop]
  exact exists_congr fun x => and_congr_right fun _ => and_congr_right fun _ => eq_comm

theorem counts_of_mem_entries {hits : List Hit} {fields : List DatasetField} {entry : TrackedEntry}
    (h : entry ∈ entries hits fields) :
    entry.placeholder = none ∧ 0 < entry.matchCount ∧ ∃ x ∈ fields.zipIdx, Counts hits x.1 x.2 entry := by
  obtain ⟨x, hx, ⟨hit, hhit, hfield⟩, rfl⟩ := mem_entries.mp h
  have hmem : hit ∈ hits.filter (·.field == x.2) := List.mem_filter.mpr ⟨hhit, by simp [hfield]⟩
  obtain ⟨hkey, hname, hplaceholder, hmatch, husages⟩ :=
    recordAll_spec (hits.filter (·.field == x.2)) { fieldKey := x.1.key, name := x.1.name }
  have hrecorded : ∀ kind, ((recordAll (hits.filter (·.field == x.2))
      { fieldKey := x.1.key, name := x.1.name }).usages.get? kind).isSome = true ↔
        ∃ hit ∈ hits, hit.field = x.2 ∧ hit.usage = kind := by
    intro kind
    rw [(husages kind).2]
    cases kind <;> simp [Usages.get?, and_assoc]
  refine ⟨hplaceholder, ?_, x, hx,
    ⟨hkey, hname, ⟨hit, hhit, hfield⟩, fun kind => ?_, fun kind => (hrecorded kind).mp, ?_⟩⟩
  · rw [hmatch]
    have := List.length_pos_of_mem hmem
    omega
  · rw [(husages kind).1, List.countP_filter]
    have : ({} : Usages).count kind = 0 := by cases kind <;> rfl
    rw [this, Nat.zero_add]
    congr 1
    funext hit
    exact Bool.and_comm _ _
  · exact Usages.primary?_isSome ((hrecorded hit.usage).mpr ⟨hit, hhit, hfield, rfl⟩)

theorem exists_entry_of_hit {hits : List Hit} {fields : List DatasetField} {x : DatasetField × Nat} {hit : Hit}
    (hx : x ∈ fields.zipIdx) (hhit : hit ∈ hits) (hfield : hit.field = x.2) :
    ∃ entry ∈ entries hits fields, entry.fieldKey = x.1.key :=
  ⟨_, mem_entries.mpr ⟨x, hx, ⟨hit, hhit, hfield⟩, rfl⟩, (recordAll_spec _ _).1⟩

/-- Fields of different keys keep them apart with their places. -/
theorem pairwise_zipIdx_key {fields : List DatasetField} (hkeys : (fields.map (·.key)).Nodup) :
    fields.zipIdx.Pairwise (fun a b => a.1.key ≠ b.1.key) := by
  rw [← List.zipIdx_map_fst 0 fields, List.map_map] at hkeys
  exact List.pairwise_map.mp hkeys

theorem eq_of_key_eq {fields : List DatasetField} (hkeys : (fields.map (·.key)).Nodup)
    {x y : DatasetField × Nat}
    (hx : x ∈ fields.zipIdx) (hy : y ∈ fields.zipIdx) (h : x.1.key = y.1.key) : x = y :=
  eq_of_not_rel (pairwise_zipIdx_key hkeys) hx hy (fun hne => hne h) (fun hne => hne h.symm)

theorem pairwise_entries {hits : List Hit} {fields : List DatasetField} (hkeys : (fields.map (·.key)).Nodup) :
    (entries hits fields).Pairwise (fun a b => a.fieldKey ≠ b.fieldKey) := by
  refine List.Pairwise.filterMap _ (fun a b hab e he e' he' => ?_) (pairwise_zipIdx_key hkeys)
  simp only [Option.ite_none_left_eq_some, Option.some.injEq] at he he'
  rw [← he.2, ← he'.2]
  have ha := (recordAll_spec (hits.filter (·.field == a.2)) { fieldKey := a.1.key, name := a.1.name }).1
  have hb := (recordAll_spec (hits.filter (·.field == b.2)) { fieldKey := b.1.key, name := b.1.name }).1
  unfold recordAll at ha hb
  rw [ha, hb]
  exact hab

/-! ## The host's conventions -/

theorem use_defaults {own kind : UsageKind} {ending : String} {priority : Nat}
    (h : Use Convention.defaults own ending priority kind) : ending.toList ∈ Convention.endings := by
  cases h with
  | own => exact List.mem_cons_self
  | derived _ hmem hsuffix _ =>
    exact List.mem_cons_of_mem _ (List.mem_map_of_mem (List.mem_filterMap.mpr ⟨_, hmem, hsuffix⟩))

def IsReservedName (name : String) : Prop :=
  name = "__identity__" ∨ name = "__selected__"

theorem ownUsage?_defaults {field : DatasetField} {own : UsageKind}
    (h : ownUsage? Convention.defaults field = some own) :
    own = .direct ∧ ¬ IsReservedName field.name ∨ own.isReserved = true ∧ IsReservedName field.name := by
  unfold ownUsage? at h
  split at h
  · cases h
  · simp only [Convention.reservedKind?, Convention.defaults, List.findSome?] at h
    by_cases h1 : "__identity__" = field.name
    · simp only [h1, if_true, SyntheticKind.usageKind?, Option.some.injEq] at h
      exact .inr ⟨h ▸ rfl, .inl h1.symm⟩
    by_cases h2 : "__selected__" = field.name
    · simp only [h1, h2, if_true, if_false, SyntheticKind.usageKind?, Option.some.injEq] at h
      exact .inr ⟨h ▸ rfl, .inr h2.symm⟩
    refine .inl ⟨?_, by rintro (h | h) <;> simp_all⟩
    by_cases h3 : "__drilldown__" = field.name
    · simp [h1, h2, h3, SyntheticKind.usageKind?] at h
    by_cases h4 : "__drilldown_flat__" = field.name
    · simp [h1, h2, h3, h4, SyntheticKind.usageKind?] at h
    simpa [h1, h2, h3, h4, eq_comm] using h

/-- The kind of a use is reserved exactly when the own use of the field is. -/
theorem isReserved_of_use {own kind : UsageKind} {ending : String} {priority : Nat}
    (h : Use Convention.defaults own ending priority kind) : kind.isReserved = own.isReserved := by
  cases h with
  | own => rfl
  | derived hdirect hmem hsuffix hkind =>
    subst hdirect
    have : ∀ convention ∈ Convention.defaults, ∀ suffix ∈ convention.suffix?, ∀ kind ∈ convention.kind.usageKind?,
        kind.isReserved = false := by decide
    exact this _ hmem _ hsuffix _ hkind

variable {text : List Char} {fields : List DatasetField}

theorem eq_of_index_eq {x y : DatasetField × Nat} (hx : x ∈ fields.zipIdx) (hy : y ∈ fields.zipIdx)
    (h : x.2 = y.2) :
    x = y := by
  have hx := List.mem_zipIdx_iff_getElem?.mp hx
  have hy := List.mem_zipIdx_iff_getElem?.mp hy
  rw [h, hy] at hx
  exact Prod.ext (by simpa using hx.symm) h

/-- Every candidate is a use of a field. -/
theorem use_of_mem_allCandidates {c : Candidate Hit} (h : c ∈ allCandidates Convention.defaults text fields) :
    ∃ x ∈ fields.zipIdx, ∃ own ending, ownUsage? Convention.defaults x.1 = some own ∧ c.value.field = x.2 ∧
      Use Convention.defaults own ending c.priority c.value.usage ∧
        ∃ r ∈ findReferences (x.1.name ++ ending).toList (QuoteMap.lex text) text, r.span = c.span := by
  obtain ⟨x, hx, hc⟩ := mem_allCandidates.mp h
  obtain ⟨own, hown, ending, priority, kind, huse, r, hr, rfl⟩ := mem_fieldCandidates.mp hc
  exact ⟨x, hx, own, ending, hown, rfl, huse, r, hr, rfl⟩

theorem use_of_hit {hit : Hit} {x : DatasetField × Nat} (hx : x ∈ fields.zipIdx)
    (hhit : hit ∈ hits Convention.defaults text fields) (hfield : hit.field = x.2) :
    ∃ own ending priority, ownUsage? Convention.defaults x.1 = some own ∧
      Use Convention.defaults own ending priority hit.usage ∧
        ∃ r ∈ findReferences (x.1.name ++ ending).toList (QuoteMap.lex text) text,
          ⟨r.span, priority, hit⟩ ∈ Candidate.arbitrate (allCandidates Convention.defaults text fields) := by
  rw [hits_eq] at hhit
  obtain ⟨c, hc, rfl⟩ := List.mem_map.mp hhit
  obtain ⟨y, hy, own, ending, hown, hcfield, huse, r, hr, hspan⟩ :=
    use_of_mem_allCandidates (Candidate.mem_of_mem_arbitrate hc)
  obtain rfl : y = x := eq_of_index_eq hy hx (hcfield.symm.trans hfield)
  exact ⟨own, ending, c.priority, hown, huse, r, hr, hspan ▸ hc⟩

/-- An entry needs a token exactly when its field is used directly. -/
theorem needsPlaceholder_iff {x : DatasetField × Nat} {entry : TrackedEntry} (hx : x ∈ fields.zipIdx)
    (hc : Counts (hits Convention.defaults text fields) x.1 x.2 entry) :
    needsPlaceholder entry = true ↔ ownUsage? Convention.defaults x.1 = some .direct := by
  obtain ⟨kind, hprimary⟩ := Option.isSome_iff_exists.mp hc.primary
  obtain ⟨hit, hhit, hfield, rfl⟩ := hc.recorded kind (Usages.primary?_eq_some hprimary)
  obtain ⟨own, ending, priority, hown, huse, _⟩ := use_of_hit hx hhit hfield
  have hreserved := isReserved_of_use huse
  simp only [needsPlaceholder, TrackedEntry.usageKind?, hprimary, Option.any_some, hreserved, hown, Option.some.injEq,
    Bool.not_eq_true']
  rcases ownUsage?_defaults hown with ⟨rfl, _⟩ | ⟨h, _⟩
  · simp [UsageKind.isReserved]
  · rw [h]
    refine ⟨nofun, ?_⟩
    intro he
    subst he
    cases h

/-! ## The registry of a pass -/

def passEntries (request : TrackingRequest) : List TrackedEntry :=
  withTokens (if request.reset then .empty else request.previousTrackedFields)
    { text := request.specText.toList, names := request.knownFields.map (·.name) }
    (entries (hits request.supplementaryPatterns request.specText.toList request.knownFields) request.knownFields)

theorem trackedFields_eq (request : TrackingRequest) : (track request).trackedFields = .empty ∨
    (track request).trackedFields = .ofEntries (passEntries request) := by
  simp only [track, pass]
  split
  · exact .inl rfl
  · exact .inr rfl

/-- Where the candidates stand in order there is nothing to sort. -/
theorem trackedFields_of_pairwise {request : TrackingRequest}
    (h : (request.specText.toList.all isSpace || request.knownFields.isEmpty) = false)
    (hsorted : (allCandidates request.supplementaryPatterns request.specText.toList request.knownFields).Pairwise
      (fun a b => a.le b = true)) :
    (track request).trackedFields = .ofEntries
      (withTokens (if request.reset then .empty else request.previousTrackedFields)
        { text := request.specText.toList, names := request.knownFields.map (·.name) }
        (entries ((Candidate.accept 0 (allCandidates request.supplementaryPatterns request.specText.toList
          request.knownFields)).map (·.value)) request.knownFields)) := by
  have hpass : (track request).trackedFields = .ofEntries (passEntries request) := by
    simp only [track, pass, h]
    rfl
  rw [hpass, passEntries, hits_eq, Candidate.arbitrate_of_pairwise hsorted]

theorem given_passEntries (request : TrackingRequest) :
    Given { text := request.specText.toList, names := request.knownFields.map (·.name) } (passEntries request) :=
  given_withTokens _ _ fun _ h => (counts_of_mem_entries h).1

theorem map_fieldKey_passEntries (request : TrackingRequest) : (passEntries request).map (·.fieldKey) =
    (entries (hits request.supplementaryPatterns request.specText.toList request.knownFields) request.knownFields).map
      (·.fieldKey) := by
  have hbare (entries : List TrackedEntry) :
      entries.map (·.fieldKey) = (entries.map TrackedEntry.bare).map (·.fieldKey) := by
    rw [List.map_map]
    rfl
  rw [hbare, passEntries, bare_withTokens, ← hbare]

theorem pairwise_passEntries {request : TrackingRequest} (hkeys : (request.knownFields.map (·.key)).Nodup) :
    (passEntries request).Pairwise (fun a b => a.fieldKey ≠ b.fieldKey) := by
  apply List.pairwise_map.mp
  rw [map_fieldKey_passEntries]
  exact List.pairwise_map.mpr (pairwise_entries hkeys)

/-- Every entry of a pass counts the hits of one field, and has a token exactly when the field is used directly. -/
theorem counts_of_mem_passEntries {request : TrackingRequest}
    (hpatterns : request.supplementaryPatterns = Convention.defaults)
    {entry : TrackedEntry} (h : entry ∈ passEntries request) : 0 < entry.matchCount ∧ ∃ x ∈ request.knownFields.zipIdx,
      Counts (hits Convention.defaults request.specText.toList request.knownFields) x.1 x.2 entry ∧
        (entry.placeholder.isSome = true ↔ ownUsage? Convention.defaults x.1 = some .direct) := by
  have hbare : entry.bare ∈ (passEntries request).map TrackedEntry.bare := List.mem_map_of_mem h
  rw [passEntries, bare_withTokens, hpatterns] at hbare
  obtain ⟨entry', h', heq⟩ := List.mem_map.mp hbare
  obtain ⟨_, hmatch, x, hx, hcounts⟩ := counts_of_mem_entries h'
  have hcounts := hcounts.of_bare heq.symm
  have hm : entry'.matchCount = entry.matchCount := show entry'.bare.matchCount = entry.bare.matchCount by rw [heq]
  refine ⟨by omega, x, hx, hcounts, ?_⟩
  rw [isSome_withTokens _ _ (fun _ h => (counts_of_mem_entries h).1) entry h]
  exact needsPlaceholder_iff hx hcounts

/-- A field in use has an entry of a pass, when its key is no other field's. -/
theorem exists_passEntry {request : TrackingRequest}
    (hpatterns : request.supplementaryPatterns = Convention.defaults)
    (hkeys : (request.knownFields.map (·.key)).Nodup) {x : DatasetField × Nat}
    (hx : x ∈ request.knownFields.zipIdx)
    (hused : ∃ hit ∈ hits Convention.defaults request.specText.toList request.knownFields, hit.field = x.2) :
    ∃ entry ∈ passEntries request,
      Counts (hits Convention.defaults request.specText.toList request.knownFields) x.1 x.2 entry ∧
        (entry.placeholder.isSome = true ↔ ownUsage? Convention.defaults x.1 = some .direct) := by
  obtain ⟨hit, hhit, hfield⟩ := hused
  obtain ⟨entry', hentry', hkey⟩ := exists_entry_of_hit hx (hpatterns ▸ hhit) hfield
  have hmem : x.1.key ∈ (passEntries request).map (·.fieldKey) := by
    rw [map_fieldKey_passEntries, ← hkey]
    exact List.mem_map_of_mem hentry'
  obtain ⟨entry, hentry, hentrykey⟩ := List.mem_map.mp hmem
  obtain ⟨_, y, hy, hcounts, hiff⟩ := counts_of_mem_passEntries hpatterns hentry
  obtain rfl : y = x := eq_of_key_eq hkeys hy hx (hcounts.key.symm.trans hentrykey)
  exact ⟨entry, hentry, hcounts, hiff⟩

end Track

namespace Registry

/-- The tokens of a registry are different and do not occur in the text, and every entry is referred to there. -/
structure Sound (registry : Registry) (text : List Char) : Prop where
  distinct : registry.DistinctTokens
  fresh : ∀ entry ∈ registry.entries, ∀ token, entry.placeholder = some token → ¬ token.chars <:+: text
  mentioned : ∀ entry ∈ registry.entries, ∃ ending ∈ Convention.endings,
    ∃ m : Mention .outside text, m.name = entry.name.toList ++ ending

end Registry

open Track in
theorem sound_track {request : TrackingRequest}
    (hpatterns : request.supplementaryPatterns = Convention.defaults)
    (hn : Context.outside.nests request.specText.toList = true) :
    (track request).trackedFields.Sound request.specText.toList := by
  rcases trackedFields_eq request with h | h <;> rw [h]
  · have hnone (entry : TrackedEntry) : entry ∉ Registry.empty.entries := List.not_mem_nil
    exact ⟨fun a h => absurd h (hnone a), fun a h => absurd h (hnone a), fun a h => absurd h (hnone a)⟩
  · have hgiven := given_passEntries request
    refine ⟨fun a ha b hb token hta htb => ?_, fun entry hentry token htoken => ?_, fun entry hentry => ?_⟩
    · refine eq_of_not_rel hgiven.distinct (Registry.mem_of_mem_ofEntries ha) (Registry.mem_of_mem_ofEntries hb) ?_ ?_
      · exact fun hd => hd token hta token htb rfl
      · exact fun hd => hd token htb token hta rfl
    · have hclear := hgiven.clear entry (Registry.mem_of_mem_ofEntries hentry) token htoken
      simp only [Allocator.collides, Bool.or_eq_false_iff] at hclear
      rw [← occursIn_iff, hclear.2]
      exact Bool.false_ne_true
    · obtain ⟨_, x, hx, hcounts, _⟩ := counts_of_mem_passEntries hpatterns (Registry.mem_of_mem_ofEntries hentry)
      obtain ⟨hit, hhit, hfield⟩ := hcounts.used
      obtain ⟨own, ending, priority, _, huse, r, hr, _⟩ := use_of_hit hx hhit hfield
      obtain ⟨m, hname, _⟩ := (mem_findReferences hn).mp hr
      exact ⟨ending.toList, use_defaults huse, m, by rw [hname, hcounts.name, String.toList_append]⟩

end FieldRemap
