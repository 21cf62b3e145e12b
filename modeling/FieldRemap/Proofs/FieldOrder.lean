/-
  FieldRemap.Proofs.FieldOrder — the order of the known fields does not change what is tracked.

  The candidates of all fields are settled together, and the order of collection would decide
  between two of one span and one priority. There are none where no two fields share a name: the span
  tells the name that is referred to, and that name and the priority tell the field and the kind of
  use (`eq_of_name_append_eq`), as no suffix of the host ends in another one. So with a use given by
  the key of its field instead of the place the same uses win in every order
  (`arbitrate_keyedCandidates`), and each is counted once (`track_perm`).
-/

import FieldRemap.Proofs.Agreement
import FieldRemap.Proofs.Continuity
import FieldRemap.Proofs.Overlap
import Mathlib.Algebra.BigOperators.Group.Finset.Basic
import Mathlib.Algebra.GroupWithZero.Nat

namespace FieldRemap

namespace Track

/-! ## Uses by key -/

def keyAt (fields : List DatasetField) (index : Nat) : String :=
  (fields[index]?.map (·.key)).getD ""

def keyed (fields : List DatasetField) (hit : Hit) : String × UsageKind :=
  (keyAt fields hit.field, hit.usage)

def keyedCandidates (conventions : List Convention) (text : List Char) (fields : List DatasetField) :
    List (Candidate (String × UsageKind)) :=
  fields.flatMap fun field => (fieldCandidates conventions (QuoteMap.lex text) text field 0).map
    (Candidate.map fun hit => (field.key, hit.usage))

variable {conventions : List Convention} {text : List Char} {fields : List DatasetField}

theorem keyAt_of_mem {x : DatasetField × Nat} (hx : x ∈ fields.zipIdx) : keyAt fields x.2 = x.1.key := by
  simp [keyAt, List.mem_zipIdx_iff_getElem?.mp hx]

/-- The candidates of a field know its place, and make no other use of it. -/
theorem fieldCandidates_eq_map (conventions : List Convention) (quotes : QuoteMap) (text : List Char)
    (field : DatasetField) (index : Nat) : fieldCandidates conventions quotes text field index =
      (fieldCandidates conventions quotes text field 0).map (Candidate.map fun hit => ⟨index, hit.usage⟩) := by
  have hmap (name : String) (priority : Nat) (usage : UsageKind) :
      candidatesFor quotes text name priority (fun _ => Hit.mk index usage) =
        (candidatesFor quotes text name priority (fun _ => Hit.mk 0 usage)).map
          (Candidate.map fun hit => ⟨index, hit.usage⟩) := by
    rw [candidatesFor, candidatesFor, List.map_map]
    rfl
  unfold fieldCandidates
  split
  · rfl
  · dsimp only
    split
    · rw [List.map_append, hmap, List.map_flatMap]
      congr 2
      funext convention
      split
      · exact hmap ..
      · rfl
    · exact hmap ..

theorem map_keyed_allCandidates (conventions : List Convention) (text : List Char) (fields : List DatasetField) :
    (allCandidates conventions text fields).map (Candidate.map (keyed fields)) =
      keyedCandidates conventions text fields := by
  rw [allCandidates, List.map_flatMap, keyedCandidates, ← flatMap_zipIdx fields]
  refine List.flatMap_congr fun ⟨field, index⟩ hx => ?_
  have hkey := keyAt_of_mem hx
  dsimp only at hkey ⊢
  rw [fieldCandidates_eq_map conventions _ text field index, List.map_map]
  refine List.map_congr_left fun c _ => ?_
  simp only [Function.comp_apply, Candidate.map, keyed, hkey]

theorem mem_keyedCandidates {c : Candidate (String × UsageKind)} : c ∈ keyedCandidates conventions text fields ↔
    ∃ field ∈ fields, ∃ own, ownUsage? conventions field = some own ∧ ∃ ending priority kind,
      Use conventions own ending priority kind ∧
        ∃ r ∈ findReferences (field.name ++ ending).toList (QuoteMap.lex text) text,
          c = ⟨r.span, priority, (field.key, kind)⟩ := by
  simp only [keyedCandidates, List.mem_flatMap, List.mem_map, mem_fieldCandidates]
  constructor
  · intro h
    obtain ⟨field, hfield, _, ⟨own, hown, ending, priority, kind, huse, r, hr, rfl⟩, rfl⟩ := h
    exact ⟨field, hfield, own, hown, ending, priority, kind, huse, r, hr, rfl⟩
  · intro h
    obtain ⟨field, hfield, own, hown, ending, priority, kind, huse, r, hr, rfl⟩ := h
    exact ⟨field, hfield, _, ⟨own, hown, ending, priority, kind, huse, r, hr, rfl⟩, rfl⟩

/-! ## Ties -/

/-- What is referred to and the priority tell the name of the field, and the kind of use with its own use. -/
theorem eq_of_name_append_eq {name name' ending ending' : String} {own own' kind kind' : UsageKind} {priority : Nat}
    (h : Use Convention.defaults own ending priority kind) (h' : Use Convention.defaults own' ending' priority kind')
    (heq : (name ++ ending).toList = (name' ++ ending').toList) : name = name' ∧ (own = own' → kind = kind') := by
  have hsplit (hdirect : own = .direct) (hdirect' : own' = .direct) : name = name' ∧ kind = kind' := by
    subst hdirect hdirect'
    rw [String.toList_append, String.toList_append] at heq
    obtain ⟨hname, hending⟩ := split_eq (ending_of_use h) (ending_of_use h') heq
    exact ⟨String.toList_inj.mp hname, (ending_eq_iff_kind_eq h h').mp hending⟩
  cases h with
  | own =>
    cases h' with
    | own => exact ⟨String.toList_inj.mp (by simpa using heq), id⟩
  | derived hdirect =>
    cases h' with
    | derived hdirect' => exact (hsplit hdirect hdirect').imp_right fun hkind _ => hkind

/-- Where the fields have names of their own, span and priority tell the candidate. -/
theorem eq_of_mem_keyedCandidates (hnames : (fields.map (·.name)).Nodup) {c c' : Candidate (String × UsageKind)}
    (hc : c ∈ keyedCandidates Convention.defaults text fields)
    (hc' : c' ∈ keyedCandidates Convention.defaults text fields) (hspan : c.span = c'.span)
    (hpriority : c.priority = c'.priority) : c = c' := by
  obtain ⟨field, hfield, own, hown, ending, priority, kind, huse, r, hr, rfl⟩ := mem_keyedCandidates.mp hc
  obtain ⟨field', hfield', own', hown', ending', priority', kind', huse', r', hr', rfl⟩ := mem_keyedCandidates.mp hc'
  obtain rfl : priority = priority' := hpriority
  obtain ⟨rfl, hsame⟩ := eq_of_span_eq hr hr' hspan
  obtain ⟨hname, hkind⟩ := eq_of_name_append_eq huse huse' hsame
  obtain rfl : field = field' := List.inj_on_of_nodup_map hnames hfield hfield' hname
  rw [hkind (Option.some.inj (hown.symm.trans hown'))]

/-- The same candidates win in every order of the fields. -/
theorem arbitrate_keyedCandidates (hnames : (fields.map (·.name)).Nodup) {others : List DatasetField}
    (hperm : others.Perm fields) :
    Candidate.arbitrate (keyedCandidates Convention.defaults text others) =
      Candidate.arbitrate (keyedCandidates Convention.defaults text fields) := by
  have hcandidates : (keyedCandidates Convention.defaults text others).Perm
      (keyedCandidates Convention.defaults text fields) := hperm.flatMap_right _
  exact Candidate.arbitrate_perm hcandidates fun c hc c' hc' => eq_of_mem_keyedCandidates hnames hc hc'

/-! ## Entries by key -/

def keyedHits (conventions : List Convention) (text : List Char) (fields : List DatasetField) :
    List (String × UsageKind) :=
  (Candidate.arbitrate (keyedCandidates conventions text fields)).map (·.value)

theorem map_keyed_hits (conventions : List Convention) (text : List Char) (fields : List DatasetField) :
    (hits conventions text fields).map (keyed fields) = keyedHits conventions text fields := by
  rw [keyedHits, ← map_keyed_allCandidates, Candidate.arbitrate_map, hits_eq, List.map_map, List.map_map]
  rfl

def keyedEntries (uses : List (String × UsageKind)) (fields : List DatasetField) : List TrackedEntry :=
  fields.filterMap fun field =>
    let own := uses.filter (·.1 == field.key)
    if own.isEmpty then none
    else some (own.foldl (fun entry use => entry.record use.2) { fieldKey := field.key, name := field.name })

theorem exists_field_of_hit {hit : Hit} (h : hit ∈ hits conventions text fields) :
    ∃ x ∈ fields.zipIdx, hit.field = x.2 := by
  rw [hits_eq] at h
  obtain ⟨c, hc, rfl⟩ := List.mem_map.mp h
  obtain ⟨x, hx, hfield⟩ := mem_allCandidates.mp (Candidate.mem_of_mem_arbitrate hc)
  exact ⟨x, hx, field_eq_of_mem hfield⟩

/-- Where the keys differ, the uses at the place of a field are those under its key. -/
theorem filter_keyed (hkeys : (fields.map (·.key)).Nodup) {x : DatasetField × Nat} (hx : x ∈ fields.zipIdx)
    (conventions : List Convention) (text : List Char) :
    (keyedHits conventions text fields).filter (·.1 == x.1.key) =
      ((hits conventions text fields).filter (·.field == x.2)).map (keyed fields) := by
  rw [← map_keyed_hits, List.filter_map]
  congr 1
  refine List.filter_congr fun hit hhit => ?_
  obtain ⟨y, hy, hfield⟩ := exists_field_of_hit hhit
  rw [Bool.eq_iff_iff, Function.comp_apply, beq_iff_eq, beq_iff_eq, keyed, hfield, keyAt_of_mem hy]
  refine ⟨fun hkey => ?_, fun hindex => ?_⟩
  · rw [eq_of_key_eq hkeys hy hx hkey]
  · rw [eq_of_index_eq hy hx hindex]

theorem entries_eq_keyedEntries (hkeys : (fields.map (·.key)).Nodup) (conventions : List Convention)
    (text : List Char) : entries (hits conventions text fields) fields =
      keyedEntries (keyedHits conventions text fields) fields := by
  rw [entries, keyedEntries, ← filterMap_zipIdx fields]
  refine List.filterMap_congr fun x hx => ?_
  simp only [filter_keyed hkeys hx, List.isEmpty_map, List.foldl_map, keyed]

/-! ## Counts -/

/-- Hits are counted place by place. -/
theorem sum_countP_field {indices : List Nat} (hnodup : indices.Nodup) {hits : List Hit}
    (h : ∀ hit ∈ hits, hit.field ∈ indices) :
    (indices.map fun index => hits.countP (·.field == index)).sum = hits.length := by
  have hcount (index : Nat) : hits.countP (·.field == index) = (hits.map (·.field) : Multiset Nat).count index := by
    rw [Multiset.coe_count, List.count, List.countP_map]
    rfl
  have hmem : ∀ index ∈ (hits.map (·.field) : Multiset Nat), index ∈ indices.toFinset := by
    intro index hindex
    obtain ⟨hit, hhit, rfl⟩ := List.mem_map.mp (Multiset.mem_coe.mp hindex)
    exact List.mem_toFinset.mpr (h hit hhit)
  simp only [hcount]
  rw [← List.sum_toFinset _ hnodup, Multiset.sum_count_eq_card hmem, Multiset.coe_card, List.length_map]

theorem matchCount_recordAll (uses : List Hit) (field : DatasetField) :
    (recordAll uses { fieldKey := field.key, name := field.name }).matchCount = uses.length := by
  rw [(recordAll_spec _ _).2.2.2.1]
  exact Nat.zero_add _

def entryAt? (hits : List Hit) (x : DatasetField × Nat) : Option TrackedEntry :=
  let uses := hits.filter (·.field == x.2)
  if uses.isEmpty then none else some (recordAll uses { fieldKey := x.1.key, name := x.1.name })

theorem entries_eq_filterMap (hits : List Hit) (fields : List DatasetField) :
    entries hits fields = fields.zipIdx.filterMap (entryAt? hits) := rfl

/-- The match count of a field is that of its hits, and a field without an entry has none. -/
theorem sum_matchCount_filterMap (hits : List Hit) (places : List (DatasetField × Nat)) :
    ((places.filterMap (entryAt? hits)).map (·.matchCount)).sum =
      ((places.map (·.2)).map fun index => hits.countP (·.field == index)).sum := by
  induction places with
  | nil => rfl
  | cons x places ih =>
    rw [List.map_cons, List.map_cons, List.sum_cons, ← ih, List.countP_eq_length_filter]
    by_cases hempty : (hits.filter (·.field == x.2)).isEmpty = true
    · have hx : entryAt? hits x = none := if_pos hempty
      rw [List.filterMap_cons_none hx, List.isEmpty_iff.mp hempty, List.length_nil, Nat.zero_add]
    · have hx : entryAt? hits x = some _ := if_neg hempty
      rw [List.filterMap_cons_some hx, List.map_cons, List.sum_cons, matchCount_recordAll]

/-- The match counts of the entries add up to the number of hits. -/
theorem sum_matchCount_entries {hits : List Hit} (h : ∀ hit ∈ hits, ∃ x ∈ fields.zipIdx, hit.field = x.2) :
    ((entries hits fields).map (·.matchCount)).sum = hits.length := by
  rw [entries_eq_filterMap, sum_matchCount_filterMap]
  refine sum_countP_field ?_ fun hit hhit => ?_
  · rw [List.zipIdx_map_snd]
    exact List.nodup_range'
  · obtain ⟨x, hx, hfield⟩ := h hit hhit
    exact hfield ▸ List.mem_map_of_mem hx

/-! ## Tracking -/

/-- The entries of the registry, but for their tokens. -/
theorem map_bare_track (request : TrackingRequest) :
    (track request).trackedFields.entries.map TrackedEntry.bare = (Registry.ofEntries
      (entries (hits request.supplementaryPatterns request.specText.toList request.knownFields)
        request.knownFields)).entries := by
  rw [trackedFields_eq_ofEntries, Registry.map_bare_ofEntries, map_bare_passEntries]

theorem matched_entries {hits : List Hit} : ∀ entry ∈ entries hits fields, 0 < entry.matchCount :=
  fun _ h => (counts_of_mem_entries h).2.1

/-- An entry of the registry counts the hits of its field. -/
theorem matchCount_of_mem_track {request : TrackingRequest} {entry : TrackedEntry}
    (h : entry ∈ (track request).trackedFields.entries) :
    ∃ x ∈ request.knownFields.zipIdx, entry.fieldKey = x.1.key ∧ entry.name = x.1.name ∧ entry.matchCount =
      (hits request.supplementaryPatterns request.specText.toList request.knownFields).countP (·.field == x.2) := by
  have hbare : entry.bare ∈ (track request).trackedFields.entries.map TrackedEntry.bare := List.mem_map_of_mem h
  rw [map_bare_track] at hbare
  obtain ⟨x, hx, -, heq⟩ := mem_entries.mp (Registry.mem_of_mem_ofEntries hbare)
  obtain ⟨hkey, hname, -⟩ := recordAll_spec
    ((hits request.supplementaryPatterns request.specText.toList request.knownFields).filter (·.field == x.2))
    { fieldKey := x.1.key, name := x.1.name }
  refine ⟨x, hx, (congrArg TrackedEntry.fieldKey heq).trans hkey, (congrArg TrackedEntry.name heq).trans hname, ?_⟩
  rw [List.countP_eq_length_filter]
  exact (congrArg TrackedEntry.matchCount heq).trans (matchCount_recordAll _ x.1)

/-- The match counts of the registry add up to the number of hits. -/
theorem sum_matchCount_track {request : TrackingRequest} (hkeys : (request.knownFields.map (·.key)).Nodup) :
    ((track request).trackedFields.entries.map (·.matchCount)).sum =
      (hits request.supplementaryPatterns request.specText.toList request.knownFields).length := by
  let found := entries (hits request.supplementaryPatterns request.specText.toList request.knownFields)
    request.knownFields
  have hbare : (track request).trackedFields.entries.map (·.matchCount) =
      ((track request).trackedFields.entries.map TrackedEntry.bare).map (·.matchCount) := by
    rw [List.map_map]
    rfl
  have hdistinct : found.Pairwise fun a b => a.fieldKey ≠ b.fieldKey := pairwise_entries hkeys
  have hperm : (Registry.ofEntries found).entries.Perm found := Registry.ofEntries_perm_self hdistinct matched_entries
  rw [hbare, map_bare_track, (hperm.map _).sum_nat, sum_matchCount_entries fun _ => exists_field_of_hit]

/-- In every order the fields have the same entries, but for their tokens. -/
theorem map_bare_track_perm {request : TrackingRequest}
    (hpatterns : request.supplementaryPatterns = Convention.defaults)
    (hkeys : (request.knownFields.map (·.key)).Nodup) (hnames : (request.knownFields.map (·.name)).Nodup)
    {fields : List DatasetField} (hperm : fields.Perm request.knownFields) :
    (track { request with knownFields := fields }).trackedFields.entries.map TrackedEntry.bare =
      (track request).trackedFields.entries.map TrackedEntry.bare := by
  have hkeys' : (fields.map (·.key)).Nodup := (hperm.map _).nodup_iff.mpr hkeys
  have hhits : keyedHits Convention.defaults request.specText.toList fields =
      keyedHits Convention.defaults request.specText.toList request.knownFields := by
    rw [keyedHits, keyedHits, arbitrate_keyedCandidates hnames hperm]
  rw [map_bare_track, map_bare_track, hpatterns]
  refine Registry.ofEntries_perm ?_ (pairwise_entries hkeys) matched_entries
  rw [entries_eq_keyedEntries hkeys', entries_eq_keyedEntries hkeys, hhits]
  exact hperm.filterMap _

end Track

open Track in
/-- Where no two fields share a key or a name, the keys that are tracked, the names, match counts and usages of their
    entries and the drilldown result are the same in every order of the fields. The spans that win do not overlap,
    each is one of one field, and each counts in the entry of that field only. -/
theorem track_perm {request : TrackingRequest} (hpatterns : request.supplementaryPatterns = Convention.defaults)
    (hkeys : (request.knownFields.map (·.key)).Nodup) (hnames : (request.knownFields.map (·.name)).Nodup) :
    (∀ fields : List DatasetField, fields.Perm request.knownFields →
      (track { request with knownFields := fields }).trackedFields.entries.map TrackedEntry.bare =
          (track request).trackedFields.entries.map TrackedEntry.bare ∧
        (track { request with knownFields := fields }).trackedDrilldown = (track request).trackedDrilldown) ∧
      let entries := (track request).trackedFields.entries
      let accepted := Candidate.arbitrate
        (allCandidates Convention.defaults request.specText.toList request.knownFields)
      accepted.Pairwise (fun a b => a.span.stop ≤ b.span.start) ∧
        (∀ entry ∈ entries, ∃ x ∈ request.knownFields.zipIdx, entry.fieldKey = x.1.key ∧ entry.name = x.1.name ∧
          entry.matchCount = accepted.countP (·.value.field == x.2)) ∧
        (entries.map (·.matchCount)).sum = accepted.length := by
  refine ⟨fun fields hperm => ⟨map_bare_track_perm hpatterns hkeys hnames hperm, ?_⟩, ?_, fun entry hentry => ?_, ?_⟩
  · rw [trackedDrilldown_track, trackedDrilldown_track]
  · refine Candidate.pairwise_arbitrate fun c hc => ?_
    obtain ⟨_, _, _, _, _, _, _, r, hr, hspan⟩ := use_of_mem_allCandidates hc
    rw [← hspan]
    exact (bounds_of_mem_findReferences hr).1
  · obtain ⟨x, hx, hkey, hname, hcount⟩ := matchCount_of_mem_track hentry
    refine ⟨x, hx, hkey, hname, ?_⟩
    rw [hcount, hpatterns, hits_eq, List.countP_map]
    rfl
  · rw [sum_matchCount_track hkeys, hpatterns, hits_eq, List.length_map]

/-- A field that has the name derived from another one: the use is its own one whichever field comes first. -/
theorem track_perm_contested :
    let sales : DatasetField := ⟨"s", "Sales", .numeric, .measure, false⟩
    let marked : DatasetField := ⟨"m", "Sales__highlight", .numeric, .measure, false⟩
    let request : TrackingRequest := { specText := "[\"Sales__highlight\"]", knownFields := [marked, sales] }
    (track request).trackedFields.entries =
        [⟨"m", "Sales__highlight", some (.ofIndex 0), 1, { direct := some 1 }⟩] ∧
      (track { request with knownFields := [sales, marked] }).trackedFields.entries.map TrackedEntry.bare =
        [⟨"m", "Sales__highlight", none, 1, { direct := some 1 }⟩] ∧
      (Candidate.arbitrate
        (Track.allCandidates Convention.defaults request.specText.toList request.knownFields)).length = 1 := by
  intro sales marked request
  have hentries : (track request).trackedFields.entries =
      [⟨"m", "Sales__highlight", some (.ofIndex 0), 1, { direct := some 1 }⟩] := by
    rw [Track.trackedFields_of_pairwise] <;> decide +kernel
  obtain ⟨hperm, -, -, hsum⟩ := @track_perm request rfl (by decide) (by decide)
  refine ⟨hentries, (hperm [sales, marked] (.swap marked sales [])).1.trans ?_, hsum.symm.trans ?_⟩
  · rw [hentries]
    rfl
  · rw [hentries]
    rfl

end FieldRemap
