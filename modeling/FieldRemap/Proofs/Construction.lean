/-
  FieldRemap.Proofs.Construction — every way a registry is made.

  A registry comes from entries put in one by one, from a list of them, from its JSON form or from a
  pass over a text. Each way offers it entries in an order (`Registry.Built`), and what it holds for a
  key is the last one offered for it that has a match (`Registry.Built.get?_eq`). The numbers stay in
  64 bits on every way (`Registry.Built.inRange`), which is what makes a registry that is written read
  back.

  The two counters of an entry go together: each use adds one to the match count and one to the count
  of its kind (`TrackedEntry.IsTallied.record`).
-/

import FieldRemap.Proofs.Answering
import Mathlib.Algebra.BigOperators.Group.List.Basic
import Mathlib.Algebra.GroupWithZero.Nat

namespace FieldRemap

namespace Registry

variable {registry : Registry} {entry : TrackedEntry} {entries offered : List TrackedEntry}

/-! ## Ways of making a registry -/

/-- A registry that has been made, and the entries it was offered, in order. The numbers that come in are those of
    the program, which have 64 bits; the texts and the fields of a pass fit in memory. -/
inductive Built : Registry → List TrackedEntry → Prop
  | empty : Built .empty []
  | insert {registry : Registry} {offered : List TrackedEntry} {entry : TrackedEntry} : Built registry offered →
      entry.InRange → Built (registry.insert entry) (offered ++ [entry])
  | collect {entries : List TrackedEntry} : (∀ entry ∈ entries, entry.InRange) → Built (.ofEntries entries) entries
  /-- Of the members that have one key the last is taken; what is left is offered by ascending member key. -/
  | read {limit : Nat} {draft : Draft} {registry : Registry} {members : List (String × TrackedEntry)} :
      draft.Bounded limit → decode draft = .ok registry →
      draft.decodeEntries Except.ok TrackedEntry.decode = .ok members →
      Built registry ((latestByKey members).map (·.2))
  | track {request : TrackingRequest} {earlier : List TrackedEntry} :
      Built request.previousTrackedFields earlier → byteLength request.specText.toList < signedWordLimit →
      2 * request.knownFields.length < signedWordLimit →
      Built (track request).trackedFields (Track.passEntries request)

theorem inRange_insert (h : registry.InRange) (hentry : entry.InRange) : (registry.insert entry).InRange := by
  intro x hx
  rcases mem_of_mem_insert hx with rfl | hx
  · exact hentry
  · exact h x hx

theorem inRange_ofEntries (h : ∀ entry ∈ entries, entry.InRange) : (ofEntries entries).InRange :=
  fun entry hentry => h entry (mem_of_mem_ofEntries hentry)

/-- What is decoded is made of the members that are decoded. -/
theorem eq_ofEntries_of_decode {draft : Draft} {members : List (String × TrackedEntry)}
    (h : decode draft = .ok registry) (hmembers : draft.decodeEntries Except.ok TrackedEntry.decode = .ok members) :
    registry = .ofEntries ((latestByKey members).map (·.2)) := by
  rw [decode, hmembers] at h
  exact (Except.ok.inj h).symm

namespace Built

theorem inRange (h : Built registry offered) : registry.InRange := by
  induction h with
  | empty => exact fun _ hentry => absurd hentry List.not_mem_nil
  | insert _ hentry ih => exact inRange_insert ih hentry
  | collect hentries => exact inRange_ofEntries hentries
  | read hdraft hread _ => exact Registry.gives _ _ hdraft hread
  | @track request _ _ htext hfields ih =>
    have hadmitted : request.Admitted (signedWordLimit - 1) :=
      ⟨by omega, by omega, fun entry hentry => (ih entry hentry).placeholder⟩
    exact Track.inRange_trackedFields hadmitted (by decide)

theorem get?_eq (h : Built registry offered) (key : String) :
    registry.get? key = offered.reverse.find? (·.isFor key) := by
  induction h with
  | empty => rfl
  | insert _ _ ih =>
    rw [get?_insert, ih, List.reverse_append, List.reverse_singleton, List.singleton_append, List.find?_cons]
    cases TrackedEntry.isFor _ key <;> rfl
  | collect _ => exact get?_ofEntries _ key
  | read _ hread hmembers =>
    rw [eq_ofEntries_of_decode hread hmembers]
    exact get?_ofEntries _ key
  | track _ _ _ _ =>
    rw [Track.trackedFields_eq_ofEntries]
    exact get?_ofEntries _ key

end Built

structure Holds (registry : Registry) (offered : List TrackedEntry) : Prop where
  ascending : registry.entries.Pairwise fun a b => a.fieldKey < b.fieldKey
  matched : ∀ entry ∈ registry.entries, 1 ≤ entry.matchCount
  own : ∀ entry ∈ registry.entries, registry.get? entry.fieldKey = some entry
  latest : ∀ key, registry.get? key = offered.reverse.find? (·.isFor key)
  refused : ∀ entry, (registry.insert? entry = none ↔ entry.matchCount = 0) ∧
    (registry.insert? entry = none → registry.insert entry = registry)
  readBack : (Document.ofBytes registry.toJson.compact.toUTF8).decode decode = .ok registry

theorem Built.holds (h : Built registry offered) : registry.Holds offered where
  ascending := registry.ascending
  matched := registry.matched
  own := fun _ => get?_of_mem
  latest := h.get?_eq
  refused := fun _ => ⟨insert?_eq_none, insert_of_refused⟩
  readBack := by
    have hcarried : Carried decode (124 + 3) registry.toJson registry := carried h.inRange
    exact hcarried.ofBytes_compact

/-- A registry that bytes are decoded to is made of the members they are read as. -/
theorem Built.of_ofBytes {bytes : ByteArray} (h : (Document.ofBytes bytes).decode decode = .ok registry) :
    ∃ members, (Document.ofBytes bytes).value.decodeEntries Except.ok TrackedEntry.decode = .ok members ∧
      Built registry ((latestByKey members).map (·.2)) := by
  unfold Document.decode at h
  split at h
  · cases h
  · next hread =>
    split at h
    · cases h
    · obtain rfl := Except.ok.inj h
      obtain ⟨members, hmembers, -⟩ := Numeral.exists_map_eq_ok hread
      exact ⟨members, hmembers, .read (Document.bounded_ofBytes bytes) hread hmembers⟩

end Registry

/-! ## The counters of an entry -/

namespace Usages

theorem get?_record (usages : Usages) (kind kind' : UsageKind) :
    (usages.record kind).get? kind' = if kind = kind' then some (usages.count kind + 1) else usages.get? kind' := by
  cases kind <;> cases kind' <;> rfl

/-- The recorded counts are those of all kinds, of which the others are zero. -/
theorem sum_toList (usages : Usages) : (usages.toList.map (·.2)).sum = (UsageKind.all.map usages.count).sum := by
  rw [toList]
  induction UsageKind.all with
  | nil => rfl
  | cons kind kinds ih =>
    rw [List.map_cons, List.sum_cons, ← ih, count]
    cases hkind : usages.get? kind with
    | none => simp [hkind]
    | some n => simp [hkind]

theorem sum_toList_record (usages : Usages) (kind : UsageKind) :
    ((usages.record kind).toList.map (·.2)).sum = (usages.toList.map (·.2)).sum + 1 := by
  rw [sum_toList, sum_toList]
  have hcount : (usages.record kind).count = fun kind' => usages.count kind' + if kind = kind' then 1 else 0 :=
    funext fun kind' => count_record usages kind kind'
  have hone : (UsageKind.all.map fun kind' => if kind = kind' then 1 else 0).sum = 1 := by cases kind <;> rfl
  rw [hcount, List.sum_map_add, hone]

end Usages

/-- The counters of an entry go together: its matches are its uses of every kind, of each of which there is one. -/
structure TrackedEntry.IsTallied (entry : TrackedEntry) : Prop where
  sum : entry.matchCount = (entry.usages.toList.map (·.2)).sum
  positive : ∀ kind n, entry.usages.get? kind = some n → 1 ≤ n

/-- One more use keeps the counters together. -/
theorem TrackedEntry.IsTallied.record {entry : TrackedEntry} (h : entry.IsTallied) (kind : UsageKind) :
    (entry.record kind).IsTallied where
  sum := by
    rw [TrackedEntry.record, Usages.sum_toList_record, ← h.sum]
  positive := by
    intro kind' n hcount
    rw [TrackedEntry.record, Usages.get?_record] at hcount
    split at hcount
    · obtain rfl := Option.some.inj hcount
      omega
    · exact h.positive kind' n hcount

namespace Track

theorem isTallied_recordAll {entry : TrackedEntry} (h : entry.IsTallied) (uses : List Hit) :
    (recordAll uses entry).IsTallied := by
  induction uses generalizing entry with
  | nil => exact h
  | cons hit uses ih => exact ih (h.record hit.usage)

theorem isTallied_of_mem_track {request : TrackingRequest} {entry : TrackedEntry}
    (h : entry ∈ (track request).trackedFields.entries) : entry.IsTallied := by
  rw [trackedFields_eq_ofEntries] at h
  have hbare : entry.bare ∈ (passEntries request).map TrackedEntry.bare :=
    List.mem_map_of_mem (Registry.mem_of_mem_ofEntries h)
  rw [map_bare_passEntries] at hbare
  obtain ⟨x, -, -, heq⟩ := mem_entries.mp hbare
  have hfresh : TrackedEntry.IsTallied { fieldKey := x.1.key, name := x.1.name } :=
    ⟨rfl, fun kind _ hcount => by cases kind <;> cases hcount⟩
  -- a token is no counter, so what is said of the entry without its token is said of the entry
  have htallied : entry.bare.IsTallied := heq ▸ isTallied_recordAll hfresh _
  exact ⟨htallied.sum, htallied.positive⟩

end Track

namespace Registry

/-- However a registry is made, of the entries it was offered it holds for each key the last that has a match, in
    ascending order and each under its own key; it refuses an entry without a match and stays as it was; and what is
    written of it is read back as it. Whatever is read as a registry is made of the entries that are read. In the
    registry of a pass, moreover, the match count of an entry is the sum of its counts, each of which is positive. -/
theorem built_holds :
    (∀ registry offered, Built registry offered → registry.Holds offered) ∧
      (∀ bytes registry, (Document.ofBytes bytes).decode decode = .ok registry →
        ∃ members, (Document.ofBytes bytes).value.decodeEntries Except.ok TrackedEntry.decode = .ok members ∧
          Built registry ((latestByKey members).map (·.2))) ∧
        ∀ request, ∀ entry ∈ (track request).trackedFields.entries, entry.IsTallied := by
  refine ⟨fun registry offered h => h.holds, fun bytes registry h => Built.of_ofBytes h, ?_⟩
  intro request entry hentry
  exact Track.isTallied_of_mem_track hentry

/-- Two members with one field key are read; then an entry without a match is refused, and one of a second field is put
    in. A pass counts a field twice. -/
theorem built_holds_sales :
    let text := "\x7b\"a\":\x7b\"fieldKey\":\"s\",\"name\":\"Old\",\"matchCount\":5\x7d," ++
      "\"b\":\x7b\"fieldKey\":\"s\",\"name\":\"Sales\",\"matchCount\":2\x7d\x7d"
    let old : TrackedEntry := ⟨"s", "Old", none, 5, {}⟩
    let sales : TrackedEntry := ⟨"s", "Sales", none, 2, {}⟩
    let unmatched : TrackedEntry := ⟨"s", "Sales", none, 0, {}⟩
    let year : TrackedEntry := ⟨"y", "Year", some (.ofIndex 0), 3, { direct := some 3 }⟩
    let request : TrackingRequest :=
      { specText := "[\"Sales\",\"Sales\"]", knownFields := [⟨"s", "Sales", .numeric, .measure, false⟩] }
    (∃ registry, (Document.ofBytes text.toUTF8).decode decode = .ok registry ∧ registry.entries = [sales] ∧
      Built registry [old, sales] ∧ registry.Holds [old, sales] ∧
        ((registry.insert unmatched).insert year).Holds [old, sales, unmatched, year] ∧
          ((registry.insert unmatched).insert year).entries = [sales, year]) ∧
      (track request).trackedFields.entries = [⟨"s", "Sales", some (.ofIndex 0), 2, { direct := some 2 }⟩] ∧
        ∀ entry ∈ (track request).trackedFields.entries, entry.IsTallied := by
  intro text old sales unmatched year request
  obtain ⟨hholds, hbytes, htrack⟩ := built_holds
  specialize hbytes text.toUTF8
  have hinput : Document.ofBytes text.toUTF8 = .ofInput (text.toList.map some) := by
    rw [Document.ofBytes, Document.decodeUtf8_toUTF8]
  generalize Document.ofBytes text.toUTF8 = document at hbytes hinput ⊢
  obtain ⟨hend, hmembers⟩ : document.isFollowed = false ∧
      document.value.decodeEntries Except.ok TrackedEntry.decode = .ok [("a", old), ("b", sales)] := by
    rw [hinput]
    decide +kernel
  have hlatest : latestByKey [("a", old), ("b", sales)] = [("a", old), ("b", sales)] :=
    latestByKey_of_ascending (by decide)
  have hdocument : document.decode decode = .ok (.ofEntries [old, sales]) := by
    have hread : decode document.value = .ok (.ofEntries [old, sales]) := by
      rw [decode, hmembers, Except.map, hlatest]
      rfl
    simp only [Document.decode, hread, hend, Bool.false_eq_true, if_false]
  have hbuilt : Built (.ofEntries [old, sales]) [old, sales] := by
    obtain ⟨members, hmembers', hbuilt⟩ := hbytes _ hdocument
    obtain rfl := Except.ok.inj (hmembers.symm.trans hmembers')
    rwa [hlatest] at hbuilt
  have hunmatched : unmatched.InRange :=
    ⟨by decide, fun kind => by cases kind <;> decide, fun token htoken => by cases htoken⟩
  have hyear : year.InRange := by
    refine ⟨by decide, fun kind => by cases kind <;> decide, fun token htoken => ?_⟩
    obtain rfl := Option.some.inj htoken
    decide
  refine ⟨⟨_, hdocument, by decide, hbuilt, hholds _ _ hbuilt,
    hholds _ _ (.insert (.insert hbuilt hunmatched) hyear), by decide⟩, ?_, htrack request⟩
  rw [Track.trackedFields_of_pairwise] <;> decide +kernel

end Registry

end FieldRemap
