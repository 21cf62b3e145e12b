/-
  FieldRemap.Proofs.Continuity — tokens over a sequence of passes.

  A specification is revised again and again, and each pass is given the registry of the pass
  before. No two tokens of a registry have one index (`distinct_trackedFields`); this is what
  makes a field keep its token. Tokens of different fields that had different indices before
  are claimed without one being in the way of another (`keeps_of_distinct`), and a token is
  claimed before any is allocated. So:

  - a field keeps its token for as long as it is used, unless the token occurs in the text or
    names a field, and no other field gets its index (`keeps_of_track`);
  - what is counted does not depend on the registry before (`map_bare_trackedFields`);
  - a pass over the same revision again finds nothing to change (`track_again`).

  `passes_keep_tokens` says this of every step of every sequence. Fields that share a key are
  left out: the registry holds one of them, and the token it had may be claimed by another.
-/

import FieldRemap.Proofs.Lookup
import FieldRemap.Proofs.Numbering

namespace FieldRemap

namespace Registry

theorem get?_of_mem {registry : Registry} {entry : TrackedEntry} (h : entry ∈ registry.entries) :
    registry.get? entry.fieldKey = some entry := by
  have hkeys : (registry.entries.map (·.fieldKey)).Nodup := by
    refine List.pairwise_map.mpr (registry.ascending.imp fun hlt heq => ?_)
    rw [heq] at hlt
    exact String.lt_irrefl _ hlt
  exact find?_of_nodup_map hkeys h

/-! ## What does not depend on the tokens -/

open TrackedEntry

theorem map_bare_insertByKey (entry : TrackedEntry) (entries : List TrackedEntry) :
    (insertByKey entry entries).map bare = insertByKey entry.bare (entries.map bare) := by
  induction entries with
  | nil => rfl
  | cons other rest ih =>
    have hkey (entry : TrackedEntry) : entry.bare.fieldKey = entry.fieldKey := rfl
    simp only [insertByKey, List.map_cons, hkey]
    split
    · rfl
    · split
      · rfl
      · rw [List.map_cons, ih]

theorem map_bare_insert {registry registry' : Registry} (entry : TrackedEntry)
    (h : registry'.entries = registry.entries.map bare) :
    (registry'.insert entry.bare).entries = (registry.insert entry).entries.map bare := by
  by_cases hmatch : 0 < entry.matchCount
  · rw [entries_insert hmatch, entries_insert (show 0 < entry.bare.matchCount from hmatch), h, map_bare_insertByKey]
  · have hbare : ¬ 0 < entry.bare.matchCount := hmatch
    rw [insert_of_refused (insert?_eq_none.mpr (Nat.eq_zero_of_not_pos hmatch)),
      insert_of_refused (insert?_eq_none.mpr (Nat.eq_zero_of_not_pos hbare)), h]

/-- Entries without their tokens make the registry without its tokens. -/
theorem map_bare_ofEntries (entries : List TrackedEntry) :
    (ofEntries entries).entries.map bare = (ofEntries (entries.map bare)).entries := by
  suffices hfold : ∀ registry registry' : Registry, registry'.entries = registry.entries.map bare →
      ((entries.map bare).foldl insert registry').entries = (entries.foldl insert registry).entries.map bare from
    (hfold empty empty rfl).symm
  induction entries with
  | nil => exact fun registry registry' h => h
  | cons entry rest ih => exact fun registry registry' h => ih _ _ (map_bare_insert entry h)

end Registry

namespace Track

open TrackedEntry

/-- Names, match counts and usages are those of the text, whichever registry tokens are kept from. -/
theorem map_bare_trackedFields (request : TrackingRequest) (previous : Registry) (reset : Bool) :
    (track { request with previousTrackedFields := previous, reset }).trackedFields.entries.map bare =
      (track request).trackedFields.entries.map bare := by
  rw [trackedFields_eq_ofEntries, trackedFields_eq_ofEntries, Registry.map_bare_ofEntries,
    Registry.map_bare_ofEntries, map_bare_passEntries, map_bare_passEntries]

theorem trackedDrilldown_track (request : TrackingRequest) : (track request).trackedDrilldown =
    .evaluate (referencesDrilldown request.supplementaryPatterns request.specText.toList) request.hasDrilldown := by
  simp only [track, pass]
  split <;> rfl

/-! ## One pass -/

theorem map_fieldKey_of_bare {as bs : List TrackedEntry} (h : as.map bare = bs.map bare) :
    as.map (·.fieldKey) = bs.map (·.fieldKey) := by
  have hbare (entries : List TrackedEntry) : entries.map (·.fieldKey) = (entries.map bare).map (·.fieldKey) := by
    rw [List.map_map]
    rfl
  rw [hbare, h, ← hbare]

/-- Tokens that two fields of different keys had before are of different indices. -/
theorem index_ne_of_earlierToken? {previous : Registry} (hdistinct : previous.entries.Pairwise Distinct)
    {a b : TrackedEntry} (hkey : a.fieldKey ≠ b.fieldKey) {token token' : Placeholder}
    (ha : earlierToken? previous a = some token) (hb : earlierToken? previous b = some token') :
    token.index ≠ token'.index := by
  have found {entry : TrackedEntry} {token : Placeholder} (h : earlierToken? previous entry = some token) :
      ∃ x ∈ previous.entries, x.fieldKey = entry.fieldKey ∧ x.placeholder = some token := by
    unfold earlierToken? at h
    split at h
    · obtain ⟨x, hget, htoken⟩ := Option.bind_eq_some_iff.mp h
      obtain ⟨hx, hkey⟩ := Registry.get?_eq_some hget
      exact ⟨x, hx, hkey, htoken⟩
    · cases h
  obtain ⟨x, hx, hxkey, hxtoken⟩ := found ha
  obtain ⟨y, hy, hykey, hytoken⟩ := found hb
  intro heq
  have hxy : x = y := by
    refine eq_of_not_rel hdistinct hx hy ?_ ?_
    · intro h
      exact h token hxtoken token' hytoken heq
    · intro h
      exact h token' hytoken token hxtoken heq.symm
  exact hkey (by rw [← hxkey, hxy, hykey])

/-- Where the tokens before are of different indices and the keys of the entries differ, every token that is clear
    is kept. -/
theorem keeps_of_distinct {previous : Registry} {text : List Char} {names : List String}
    {entries : List TrackedEntry} (hnone : ∀ entry ∈ entries, entry.placeholder = none)
    (hdistinct : previous.entries.Pairwise Distinct)
    (hkeys : entries.Pairwise (fun a b => a.fieldKey ≠ b.fieldKey)) {entry : TrackedEntry}
    (hentry : entry ∈ withTokens previous { text, names } entries) {token : Placeholder}
    (hearlier : earlierToken? previous entry = some token)
    (hclear : Allocator.collides { text, names } token = false) : Keeps previous entry := by
  obtain ⟨before, after, hsplit⟩ := List.append_of_mem hentry
  obtain ⟨kept, old, others, hkept, -, hold⟩ := withTokens_split hnone hsplit
  refine keeps_of_split hnone hkept hold hearlier hclear ?_
  intro hindex
  obtain ⟨other, hother, token', htoken', heq⟩ := mem_indices.mp hindex
  -- the entry that would be in the way has a token of its own from before, and another key
  obtain ⟨front, back, hfront⟩ := List.append_of_mem hother
  have hearlier' : earlierToken? previous other = some token' := by
    have hother : (keepTokens previous { text, names } entries).1 = front ++ other :: (back ++ old :: others) := by
      rw [hkept, hfront, List.append_assoc, List.cons_append]
    have hplaceholder := placeholder_keepTokens hnone hother
    rw [show other.placeholder = some token' from htoken'] at hplaceholder
    exact (Option.filter_eq_some_iff.mp hplaceholder.symm).1
  have hkey : other.fieldKey ≠ old.fieldKey := by
    have hpairwise := List.pairwise_map.mpr hkeys
    rw [← map_fieldKey_of_bare (bare_keepTokens previous { text, names } entries), hkept,
      List.pairwise_map] at hpairwise
    exact (List.pairwise_append.mp hpairwise).2.2 other hother old List.mem_cons_self
  rw [earlierToken?_bare previous hold.bare_eq] at hearlier
  exact index_ne_of_earlierToken? hdistinct hkey hearlier' hearlier heq

/-- A field that had a token and still needs one keeps it, unless the text or the names have come to hold it. -/
theorem keeps_of_track {request : TrackingRequest} (hreset : request.reset = false)
    (hkeys : (request.knownFields.map (·.key)).Nodup)
    (hdistinct : request.previousTrackedFields.entries.Pairwise Distinct) {entry : TrackedEntry}
    (hentry : entry ∈ (track request).trackedFields.entries) (hneeds : needsPlaceholder entry = true)
    {earlier : TrackedEntry} (hearlier : earlier ∈ request.previousTrackedFields.entries)
    (hkey : earlier.fieldKey = entry.fieldKey) {token : Placeholder} (htoken : earlier.placeholder = some token)
    (hclear : request.Clear token) : entry.placeholder = some token := by
  rw [trackedFields_eq_ofEntries] at hentry
  have hentry := Registry.mem_of_mem_ofEntries hentry
  simp only [passEntries, hreset, Bool.false_eq_true, if_false] at hentry
  have hbefore : earlierToken? request.previousTrackedFields entry = some token := by
    rw [earlierToken?, if_pos hneeds, ← hkey, Registry.get?_of_mem hearlier]
    exact htoken
  obtain ⟨token', htoken', hplaceholder⟩ := keeps_of_distinct (fun _ h => (counts_of_mem_entries h).1) hdistinct
    (pairwise_entries hkeys) hentry hbefore (TrackingRequest.clear_iff.mp hclear)
  rw [hplaceholder, ← hbefore, htoken']

/-- Entries that are the same but for their tokens, and have the tokens they had before, are the same. -/
theorem eq_of_bare_eq {previous : Registry} {as bs : List TrackedEntry} (hbare : as.map bare = bs.map bare)
    (has : ∀ a ∈ as, a.placeholder = earlierToken? previous a)
    (hbs : ∀ b ∈ bs, b.placeholder = earlierToken? previous b) : as = bs := by
  have restore {entries : List TrackedEntry}
      (h : ∀ entry ∈ entries, entry.placeholder = earlierToken? previous entry) :
      entries = (entries.map bare).map fun entry => { entry with placeholder := earlierToken? previous entry } := by
    rw [List.map_map]
    refine ((List.map_congr_left fun entry hentry => ?_).trans (List.map_id entries)).symm
    show { entry.bare with placeholder := earlierToken? previous entry.bare } = entry
    rw [earlierToken?_bare previous (show entry.bare.bare = entry.bare from rfl), ← h entry hentry]
    rfl
  rw [restore has, restore hbs, hbare]

/-- An entry of a pass has a token exactly when it needs one. -/
theorem isSome_passEntries {request : TrackingRequest} {entry : TrackedEntry} (h : entry ∈ passEntries request) :
    entry.placeholder.isSome = needsPlaceholder entry :=
  isSome_withTokens _ _ (fun _ h => (counts_of_mem_entries h).1) entry h

/-- With the registry of a pass in place of the one before it, each entry had the token that the pass gave it. -/
theorem placeholder_passEntries {request : TrackingRequest} (hkeys : (request.knownFields.map (·.key)).Nodup)
    {entry : TrackedEntry} (h : entry ∈ passEntries request) :
    entry.placeholder = earlierToken? (track request).trackedFields entry := by
  have hsome := isSome_passEntries h
  unfold earlierToken?
  split
  · have hmatched : ∀ entry ∈ passEntries request, 0 < entry.matchCount := by
      intro entry hentry
      have hbare : entry.bare ∈ (passEntries request).map bare := List.mem_map_of_mem hentry
      rw [map_bare_passEntries] at hbare
      exact (counts_of_mem_entries hbare).2.1
    have hmem : entry ∈ (track request).trackedFields.entries := by
      rw [trackedFields_eq_ofEntries]
      exact Registry.mem_ofEntries (pairwise_passEntries hkeys) hmatched h
    rw [Registry.get?_of_mem hmem, Option.bind_some]
  · next hneeds =>
    rwa [Bool.eq_false_iff.mpr hneeds, Option.isSome_eq_false_iff, Option.isNone_iff_eq_none] at hsome

/-- A pass over what has just been tracked changes nothing. -/
theorem track_again {request : TrackingRequest} (hkeys : (request.knownFields.map (·.key)).Nodup) :
    track { request with previousTrackedFields := (track request).trackedFields, reset := false } = track request := by
  let again : TrackingRequest :=
    { request with previousTrackedFields := (track request).trackedFields, reset := false }
  show track again = track request
  have hbare : (passEntries again).map bare = (passEntries request).map bare := by
    rw [map_bare_passEntries, map_bare_passEntries]
  have hagain : ∀ entry ∈ passEntries again, entry.placeholder = earlierToken? (track request).trackedFields entry := by
    intro entry hentry
    obtain ⟨first, hfirst, hsame⟩ : ∃ first ∈ passEntries request, first.bare = entry.bare := by
      apply List.mem_map.mp
      rw [← hbare]
      exact List.mem_map_of_mem hentry
    have hearlier := placeholder_passEntries hkeys hfirst
    rw [earlierToken?_bare _ hsame] at hearlier
    cases htoken : first.placeholder with
    | none =>
      have hnone : entry.placeholder.isSome = first.placeholder.isSome := by
        rw [isSome_passEntries hentry, isSome_passEntries hfirst, needsPlaceholder_bare hsame]
      rw [htoken, Option.isSome_none, Option.isSome_eq_false_iff, Option.isNone_iff_eq_none] at hnone
      rw [hnone, ← hearlier, htoken]
    | some token =>
      have hclear := (given_passEntries request).clear first hfirst token htoken
      rw [htoken] at hearlier
      obtain ⟨token', htoken', hplaceholder⟩ := keeps_of_distinct (fun _ h => (counts_of_mem_entries h).1)
        (distinct_trackedFields request) (pairwise_entries hkeys) hentry hearlier.symm hclear
      rw [hplaceholder, ← htoken']
  have hpass : passEntries again = passEntries request :=
    eq_of_bare_eq hbare hagain fun entry h => placeholder_passEntries hkeys h
  have hfields : (track again).trackedFields = (track request).trackedFields := by
    rw [trackedFields_eq_ofEntries, trackedFields_eq_ofEntries, hpass]
  have hdrilldown : (track again).trackedDrilldown = (track request).trackedDrilldown := by
    rw [trackedDrilldown_track, trackedDrilldown_track]
  calc track again = ⟨(track again).trackedFields, (track again).trackedDrilldown⟩ := rfl
    _ = ⟨(track request).trackedFields, (track request).trackedDrilldown⟩ := by rw [hfields, hdrilldown]
    _ = track request := rfl

end Track

/-! ## A sequence of passes -/

/-- What a specification is tracked by, but for the registry of the pass before. -/
structure Revision where
  specText : String
  knownFields : List DatasetField
  hasDrilldown : Bool := false
  supplementaryPatterns : List Convention := Convention.defaults

namespace Revision

def request (revision : Revision) (previous : Registry) : TrackingRequest where
  specText := revision.specText
  knownFields := revision.knownFields
  previousTrackedFields := previous
  hasDrilldown := revision.hasDrilldown
  supplementaryPatterns := revision.supplementaryPatterns

/-- The responses of passes over revisions, each given the registry of the one before. -/
def passes (previous : Registry) : List Revision → List TrackingResponse
  | [] => []
  | revision :: rest =>
    let response := track (revision.request previous)
    response :: passes response.trackedFields rest

variable {previous : Registry} {revisions : List Revision} {revision : Revision} {response : TrackingResponse} {n : Nat}

/-- Each response is that of a pass over its revision. -/
theorem exists_of_passes (h : (passes previous revisions)[n]? = some response) :
    ∃ revision before, revisions[n]? = some revision ∧ response = track (revision.request before) := by
  induction revisions generalizing previous n with
  | nil => cases h
  | cons first rest ih =>
    cases n with
    | zero => exact ⟨first, previous, rfl, by simpa [passes] using h.symm⟩
    | succ n => exact ih (by simpa [passes] using h)

/-- The next pass is given the registry of the one before. -/
theorem eq_of_passes_succ {next : TrackingResponse} (h : (passes previous revisions)[n]? = some response)
    (hnext : (passes previous revisions)[n + 1]? = some next) (hrevision : revisions[n + 1]? = some revision) :
    next = track (revision.request response.trackedFields) := by
  induction revisions generalizing previous n with
  | nil => cases h
  | cons first rest ih =>
    cases n with
    | zero =>
      obtain rfl : track (first.request previous) = response := by simpa [passes] using h
      cases rest with
      | nil => simp at hrevision
      | cons second rest =>
        obtain rfl : second = revision := by simpa using hrevision
        simpa [passes] using hnext.symm
    | succ n => exact ih (by simpa [passes] using h) (by simpa [passes] using hnext) (by simpa using hrevision)

open Track in
/-- From each pass to the next, a field that had a token and needs one keeps it and shares its index with no other
    field, unless the text or a name holds the token; a pass over any of the revisions once more answers the same;
    and what is counted does not depend on an earlier registry. -/
theorem passes_keep_tokens (previous : Registry) (revisions : List Revision)
    (hkeys : ∀ revision ∈ revisions, (revision.knownFields.map (·.key)).Nodup) :
    (∀ (n : Nat) (first second : TrackingResponse) (revision : Revision),
      (passes previous revisions)[n]? = some first →
      (passes previous revisions)[n + 1]? = some second → revisions[n + 1]? = some revision →
      ∀ earlier ∈ first.trackedFields.entries, ∀ token ∈ earlier.placeholder,
      ∀ entry ∈ second.trackedFields.entries, entry.fieldKey = earlier.fieldKey → needsPlaceholder entry = true →
        token.chars <:+: revision.specText.toList ∨ (∃ field ∈ revision.knownFields, field.name = token.text) ∨
        entry.placeholder = some token ∧ ∀ other ∈ second.trackedFields.entries, ∀ token' ∈ other.placeholder,
          token'.index = token.index → other = entry) ∧
    (∀ (n : Nat) (response : TrackingResponse) (revision : Revision),
      (passes previous revisions)[n]? = some response → revisions[n]? = some revision →
      track (revision.request response.trackedFields) = response) ∧
    ∀ (request : TrackingRequest) (earlier : Registry) (reset : Bool),
      let response := track { request with previousTrackedFields := earlier, reset }
      response.trackedFields.entries.map TrackedEntry.bare =
          (track request).trackedFields.entries.map TrackedEntry.bare ∧
        response.trackedDrilldown = (track request).trackedDrilldown := by
  refine ⟨?_, ?_, ?_⟩
  · intro n first second revision hfirst hsecond hrevision earlier hearlier token htoken entry hentry hkey hneeds
    obtain rfl := eq_of_passes_succ hfirst hsecond hrevision
    obtain ⟨revision', before, -, rfl⟩ := exists_of_passes hfirst
    by_cases hwritten : token.chars <:+: revision.specText.toList
    · exact .inl hwritten
    by_cases hnamed : ∃ field ∈ revision.knownFields, field.name = token.text
    · exact .inr (.inl hnamed)
    have hclear : (revision.request (track (revision'.request before)).trackedFields).Clear token := by
      refine ⟨hwritten, ?_⟩
      intro field hfield hname
      exact hnamed ⟨field, hfield, hname⟩
    have hkept : entry.placeholder = some token :=
      keeps_of_track rfl (hkeys revision (List.mem_of_getElem? hrevision)) (distinct_trackedFields _) hentry hneeds
        hearlier hkey.symm htoken hclear
    refine .inr (.inr ⟨hkept, ?_⟩)
    intro other hother token' htoken' hindex
    refine eq_of_not_rel (distinct_trackedFields _) hother hentry ?_ ?_
    · intro hdistinct
      exact hdistinct token' htoken' token hkept hindex
    · intro hdistinct
      exact hdistinct token hkept token' htoken' hindex.symm
  · intro n response revision hresponse hrevision
    obtain ⟨revision', before, hrevision', rfl⟩ := exists_of_passes hresponse
    obtain rfl : revision = revision' := by rw [hrevision] at hrevision'; exact Option.some.inj hrevision'
    exact @track_again (revision.request before) (hkeys revision (List.mem_of_getElem? hrevision))
  · intro request earlier reset response
    exact ⟨map_bare_trackedFields request earlier reset, by rw [trackedDrilldown_track, trackedDrilldown_track]⟩

/-- A field that comes in later, before the one that has the first token: that one keeps it. -/
theorem passes_keep_tokens_sales :
    let sales : DatasetField := ⟨"s", "Sales", .numeric, .measure, false⟩
    let year : DatasetField := ⟨"y", "Year", .text, .column, false⟩
    let revisions : List Revision := [⟨"[\"Sales\"]", [year, sales], false, Convention.defaults⟩,
      ⟨"[\"Year\",\"datum.Sales\"]", [year, sales], false, Convention.defaults⟩]
    ∃ first second, passes .empty revisions = [first, second] ∧
      first.trackedFields.entries = [⟨"s", "Sales", some (.ofIndex 0), 1, { direct := some 1 }⟩] ∧
      second.trackedFields.entries = [⟨"s", "Sales", some (.ofIndex 0), 1, { direct := some 1 }⟩,
        ⟨"y", "Year", some (.ofIndex 1), 1, { direct := some 1 }⟩] ∧
      ∀ entry ∈ second.trackedFields.entries, entry.fieldKey = "s" → Track.needsPlaceholder entry = true →
        entry.placeholder = some (.ofIndex 0) ∧
          ∀ other ∈ second.trackedFields.entries, ∀ token ∈ other.placeholder, token.index = 0 → other = entry := by
  intro sales year revisions
  have hkeys : ∀ revision ∈ revisions, (revision.knownFields.map (·.key)).Nodup := by decide
  have hfirst : (track (request ⟨"[\"Sales\"]", [year, sales], false, Convention.defaults⟩ .empty)).trackedFields =
      .ofEntries [⟨"s", "Sales", some (.ofIndex 0), 1, { direct := some 1 }⟩] := by
    rw [Track.trackedFields_of_pairwise] <;> decide +kernel
  refine ⟨_, _, rfl, by rw [hfirst]; decide, ?_, ?_⟩
  · rw [hfirst, Track.trackedFields_of_pairwise] <;> decide +kernel
  · intro entry hentry hkey hneeds
    have hearlier : ⟨"s", "Sales", some (.ofIndex 0), 1, { direct := some 1 }⟩ ∈ (track (request
        ⟨"[\"Sales\"]", [year, sales], false, Convention.defaults⟩ .empty)).trackedFields.entries := by
      rw [hfirst]
      exact List.mem_singleton_self _
    have hkeep := (passes_keep_tokens .empty revisions hkeys).1 0 _ _ _ rfl rfl rfl _ hearlier _ rfl
    rcases hkeep entry hentry hkey hneeds with hwritten | ⟨field, hfield, hname⟩ | hkept
    · exact absurd hwritten (by decide)
    · exact absurd hname (by revert field; decide)
    · exact hkept

end Revision

end FieldRemap
