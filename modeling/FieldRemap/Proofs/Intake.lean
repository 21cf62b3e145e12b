/-
  FieldRemap.Proofs.Intake — what a job is decoded to is in range.

  Whatever bytes a registry is decoded from, its numbers have 64 bits (`Registry.gives`), and the text
  and the fields of a tracking job are no more than fit in its bytes (`JobRequest.admitted_of_ofBytes`). Each
  decoder gives of a bounded draft only values with a property (`Gives`); a record does so when its
  fields do, whatever their order and however many of them are missing (`Record.Gives`).
-/

import FieldRemap.Proofs.Extent
import FieldRemap.Proofs.Wire
import FieldRemap.Wire.Job

namespace FieldRemap

variable {limit : Nat}

theorem exists_bind_eq_ok {α β : Type} {result : Except JsonFault α} {f : α → Except JsonFault β} {b : β}
    (h : result.bind f = .ok b) : ∃ a, result = .ok a ∧ f a = .ok b := by
  cases result with
  | error fault => cases h
  | ok a => exact ⟨a, rfl, h⟩

def Gives {α : Type} (limit : Nat) (decode : Draft → Except JsonFault α) (Q : α → Prop) : Prop :=
  ∀ draft value, draft.Bounded limit → decode draft = .ok value → Q value

namespace Gives

variable {α β : Type} {decode : Draft → Except JsonFault α} {Q : α → Prop}

theorem any : Gives limit decode fun _ => True :=
  fun _ _ _ _ => trivial

theorem text : Gives limit Draft.decodeText fun value => byteLength value.toList ≤ limit := by
  intro draft value hdraft h
  cases draft with
  | text => exact Except.ok.inj h ▸ hdraft
  | _ => cases h

theorem count : Gives limit Draft.decodeCount fun value => value < wordLimit := by
  intro draft value hdraft h
  unfold Draft.decodeCount at h
  split at h
  · exact Except.ok.inj h ▸ hdraft
  · exact Except.ok.inj h ▸ hdraft
  · cases h

theorem map {R : β → Prop} {f : α → β} (h : Gives limit decode Q) (hf : ∀ x, Q x → R (f x)) :
    Gives limit (fun draft => (decode draft).map f) R := by
  intro draft value hdraft hvalue
  obtain ⟨x, hx, rfl⟩ := Numeral.exists_map_eq_ok hvalue
  exact hf x (h draft x hdraft hx)

theorem option (h : Gives limit decode Q) : Gives limit (Draft.decodeOption decode) fun value => ∀ x ∈ value, Q x := by
  intro draft value hdraft hvalue
  have given (hvalue : (decode draft).map some = .ok value) : ∀ x ∈ value, Q x := by
    obtain ⟨x, hx, rfl⟩ := Numeral.exists_map_eq_ok hvalue
    intro y hy
    exact Option.some.inj hy ▸ h draft x hdraft hx
  cases draft with
  | null =>
    obtain rfl := Except.ok.inj hvalue
    exact nofun
  | _ => exact given hvalue

/-- A list has no more values than its array has items. -/
theorem list : Gives limit (Draft.decodeList decode) fun values => 2 * values.length ≤ limit + 1 := by
  intro draft value hdraft h
  cases draft with
  | array items unclosed =>
    have length : ∀ {items : List Draft} {values : List α}, items.mapM decode = .ok values →
        values.length = items.length := by
      intro items
      induction items with
      | nil =>
        intro values h
        obtain rfl := Except.ok.inj h
        rfl
      | cons item items ih =>
        intro values h
        rw [List.mapM_cons] at h
        cases hitem : decode item with
        | error fault =>
          rw [hitem] at h
          cases h
        | ok x =>
          cases hitems : items.mapM decode with
          | error fault =>
            rw [hitem, hitems] at h
            cases h
          | ok xs =>
            rw [hitem, hitems] at h
            obtain rfl := Except.ok.inj h
            rw [List.length_cons, List.length_cons, ih hitems]
    simp only [Draft.decodeList] at h
    split at h
    · cases h
    · cases h
    · next hitems =>
      obtain rfl := Except.ok.inj h
      rw [length hitems]
      exact hdraft.1
  | _ => cases h

theorem members {κ : Type} {decodeKey : String → Except JsonFault κ} (h : Gives limit decode Q)
    {unclosed : Option JsonFault} {members : List (Option (Except JsonFault String) × Draft)} {values : List (κ × α)}
    (hmembers : Draft.BoundedMembers limit members)
    (hvalues : Draft.decodeMembers decodeKey decode unclosed members = .ok values) : ∀ x ∈ values, Q x.2 := by
  induction members generalizing values with
  | nil =>
    cases unclosed with
    | some fault => cases hvalues
    | none =>
      obtain rfl := Except.ok.inj hvalues
      exact nofun
  | cons member members ih =>
    match member with
    | (none, _) => cases hvalues
    | (some (.error _), _) => cases hvalues
    | (some (.ok key), value) =>
      simp only [Draft.decodeMembers] at hvalues
      split at hvalues
      · cases hvalues
      · split at hvalues
        · cases hvalues
        · next hvalue =>
          obtain ⟨others, hothers, rfl⟩ := Numeral.exists_map_eq_ok hvalues
          exact List.forall_mem_cons.mpr ⟨h value _ hmembers.1 hvalue, ih hmembers.2 hothers⟩

theorem entries {κ : Type} {decodeKey : String → Except JsonFault κ} (h : Gives limit decode Q) :
    Gives limit (Draft.decodeEntries decodeKey decode) fun values => ∀ x ∈ values, Q x.2 := by
  intro draft values hdraft hvalues
  cases draft with
  | object members unclosed => exact h.members hdraft hvalues
  | hollow =>
    obtain rfl := Except.ok.inj hvalues
    exact nofun
  | _ => cases hvalues

end Gives

/-! ## Records -/

namespace Record

variable {α β : Type} {R : β → Prop} {Q : α → Prop}

/-- Of bounded drafts the record gives only values with the property: what is read so far has one that every
    field keeps. -/
def Gives (limit : Nat) (record : Record α) (Q : α → Prop) : Prop :=
  ∃ kept : record.State → Prop, kept record.start ∧
    (∀ state key value next, kept state → value.Bounded limit → record.read state key value = some (.ok next) →
      kept next) ∧
    ∀ state value, kept state → record.finish state = .ok value → Q value

theorem gives_pure {value : α} (h : Q value) : (Record.pure value).Gives limit Q := by
  refine ⟨fun _ => True, trivial, ?_, ?_⟩
  · intro _ _ _ _ _ _ hread
    cases hread
  · intro _ _ _ hfinish
    exact Except.ok.inj hfinish ▸ h

theorem gives_field {name : String} {decode : Draft → Except JsonFault α} {default : Option α}
    (h : FieldRemap.Gives limit decode Q) (hdefault : ∀ x ∈ default, Q x) :
    (field name decode default).Gives limit Q := by
  refine ⟨fun state : Option α => ∀ x ∈ state, Q x, ?_, ?_, ?_⟩
  · intro x hx
    cases hx
  · intro state key value next hkept hvalue hread
    simp only [field] at hread
    split at hread
    · split at hread
      · cases hread
      · obtain ⟨x, hx, rfl⟩ := Numeral.exists_map_eq_ok (Option.some.inj hread)
        intro y hy
        exact Option.some.inj hy ▸ h value x hvalue hx
    · cases hread
  · intro state value hkept hfinish
    simp only [field] at hfinish
    split at hfinish
    · exact hkept _ (Except.ok.inj hfinish ▸ rfl)
    · exact hdefault _ (Except.ok.inj hfinish ▸ rfl)
    · cases hfinish

theorem gives_app {function : Record (α → β)} {argument : Record α}
    (hfunction : function.Gives limit fun f => ∀ x, Q x → R (f x)) (hargument : argument.Gives limit Q) :
    (function.app argument).Gives limit R := by
  obtain ⟨kept, hstart, hread, hfinish⟩ := hfunction
  obtain ⟨kept', hstart', hread', hfinish'⟩ := hargument
  refine ⟨fun state => kept state.1 ∧ kept' state.2, ⟨hstart, hstart'⟩, ?_, ?_⟩
  · intro state key value next hkept hvalue h
    simp only [app] at h
    split at h
    · next result hresult =>
      obtain ⟨first, hfirst, rfl⟩ := Numeral.exists_map_eq_ok (Option.some.inj h)
      exact ⟨hread _ _ _ _ hkept.1 hvalue (hfirst ▸ hresult), hkept.2⟩
    · obtain ⟨result, hresult, h⟩ := Option.map_eq_some_iff.mp h
      obtain ⟨second, hsecond, rfl⟩ := Numeral.exists_map_eq_ok h
      exact ⟨hkept.1, hread' _ _ _ _ hkept.2 hvalue (hsecond ▸ hresult)⟩
  · intro state value hkept h
    simp only [app] at h
    split at h
    · cases h
    · cases h
    · next hf hx =>
      exact Except.ok.inj h ▸ hfinish _ _ hkept.1 hf _ (hfinish' _ _ hkept.2 hx)

namespace Gives

section

variable {function : Record (α → β)} {name : String} {decode : Draft → Except JsonFault α}

theorem required (h : function.Gives limit fun f => ∀ x, Q x → R (f x)) (hfield : FieldRemap.Gives limit decode Q) :
    (function.required name decode).Gives limit R :=
  gives_app h (gives_field hfield nofun)

theorem defaulted {default : α} (h : function.Gives limit fun f => ∀ x, Q x → R (f x))
    (hfield : FieldRemap.Gives limit decode Q) (hdefault : Q default) :
    (function.defaulted name decode default).Gives limit R :=
  gives_app h (gives_field hfield fun _ hx => Option.some.inj hx ▸ hdefault)

theorem optional {function : Record (Option α → β)}
    (h : function.Gives limit fun f => ∀ value, (∀ x ∈ value, Q x) → R (f value))
    (hfield : FieldRemap.Gives limit decode Q) : (function.optional name decode).Gives limit R := by
  refine gives_app h (gives_field hfield.option fun value hvalue => ?_)
  obtain rfl := Option.some.inj hvalue
  exact nofun

end

variable {record : Record α}

theorem decodeObject (h : record.Gives limit Q) : FieldRemap.Gives limit record.decodeObject Q := by
  obtain ⟨kept, hstart, hread, hfinish⟩ := h
  have reads {unclosed : Option JsonFault} {members : List (Option (Except JsonFault String) × Draft)}
      {state next : record.State} (hmembers : Draft.BoundedMembers limit members) (hkept : kept state)
      (h : record.readMembers unclosed state members = .ok next) : kept next := by
    induction members generalizing state with
    | nil =>
      cases unclosed with
      | some fault => cases h
      | none => exact Except.ok.inj h ▸ hkept
    | cons member members ih =>
      match member with
      | (none, _) => cases h
      | (some (.error _), _) => cases h
      | (some (.ok key), value) =>
        simp only [readMembers] at h
        split at h
        · cases h
        · next hvalue => exact ih hmembers.2 (hread _ _ _ _ hkept hmembers.1 hvalue) h
        · split at h
          · cases h
          · exact ih hmembers.2 hkept h
  intro draft value hdraft hvalue
  cases draft with
  | object members unclosed =>
    obtain ⟨state, hmembers, hvalue⟩ := exists_bind_eq_ok hvalue
    exact hfinish _ _ (reads hdraft hstart hmembers) hvalue
  | hollow => exact hfinish _ _ hstart hvalue
  | _ => cases hvalue

theorem decode (h : record.Gives limit Q) : FieldRemap.Gives limit record.decode Q := by
  intro draft value hdraft hvalue
  cases draft with
  | array items unclosed =>
    obtain ⟨kept, hstart, hread, hfinish⟩ := h
    have reads {named : List (String × Draft)} {state next : record.State}
        (hnamed : ∀ x ∈ named, x.2.Bounded limit) (hkept : kept state)
        (h : record.readItems state named = .ok next) : kept next := by
      induction named generalizing state with
      | nil => exact Except.ok.inj h ▸ hkept
      | cons x named ih =>
        obtain ⟨hx, hnamed⟩ := List.forall_mem_cons.mp hnamed
        simp only [readItems] at h
        split at h
        · cases h
        · next hvalue => exact ih hnamed (hread _ _ _ _ hkept hx hvalue) h
        · exact ih hnamed hkept h
    have hitems := Draft.boundedItems_iff.mp hdraft.2
    simp only [Record.decode, decodeArray] at hvalue
    split at hvalue
    · cases hvalue
    · next hstate =>
      have hkept := reads (fun x hx => hitems x.2 (List.of_mem_zip hx).2) hstart hstate
      split at hvalue
      · cases hvalue
      · split at hvalue
        · cases hvalue
        · exact hfinish _ _ hkept hvalue
  | _ => exact h.decodeObject _ _ hdraft hvalue

end Gives

end Record

/-! ## Tagged values -/

theorem Gives.whole {α : Type} {decode : Draft → Except JsonFault α} {Q : α → Prop} {json : Json} {value : α}
    (h : Gives limit decode Q) (hjson : (Draft.ofWhole json).Bounded limit)
    (hvalue : decodeWhole decode json = .ok value) : Q value := by
  unfold decodeWhole at hvalue
  split at hvalue
  · next hdecode => exact h _ _ hjson (Except.ok.inj hvalue ▸ hdecode)
  · cases hvalue

namespace Tagged

variable {κ α : Type} {tagged : Tagged κ α} {Q : α → Prop}

def Kept (limit : Nat) (Q : α → Prop) : State κ α → Prop
  | .content value => (Draft.ofWhole value).Bounded limit
  | .complete value => Q value
  | .empty | .tag _ => True

theorem kept_read (h : ∀ kind, Gives limit (tagged.content kind) Q) {state next : State κ α} {key : String}
    {value : Draft} (hkept : Kept limit Q state) (hvalue : value.Bounded limit)
    (hnext : tagged.read state key value = .ok next) : Kept limit Q next := by
  simp only [read] at hnext
  split at hnext
  · split at hnext
    · obtain ⟨_, _, rfl⟩ := Numeral.exists_map_eq_ok hnext
      trivial
    · obtain ⟨kind, _, hnext⟩ := exists_bind_eq_ok hnext
      obtain ⟨x, hx, rfl⟩ := Numeral.exists_map_eq_ok hnext
      exact (h kind).whole hkept hx
    · cases hnext
    · cases hnext
  · split at hnext
    · split at hnext
      · obtain ⟨_, hcontent, rfl⟩ := Numeral.exists_map_eq_ok hnext
        exact Draft.bounded_ofWhole hvalue hcontent
      · obtain ⟨x, hx, rfl⟩ := Numeral.exists_map_eq_ok hnext
        exact h _ _ _ hvalue hx
      · cases hnext
      · cases hnext
    · split at hnext
      · cases hnext
      · exact Except.ok.inj hnext ▸ hkept

theorem of_readMembers (h : ∀ kind, Gives limit (tagged.content kind) Q) {unclosed : Option JsonFault}
    {members : List (Option (Except JsonFault String) × Draft)} {state : State κ α} {value : α}
    (hmembers : Draft.BoundedMembers limit members) (hkept : Kept limit Q state)
    (hvalue : tagged.readMembers unclosed state members = .ok value) : Q value := by
  induction members generalizing state with
  | nil =>
    simp only [readMembers] at hvalue
    split at hvalue
    · cases hvalue
    · exact Except.ok.inj hvalue ▸ hkept
    · cases hvalue
  | cons member members ih =>
    rcases member with ⟨_ | _ | key, inner⟩
    · cases hvalue
    · cases hvalue
    · simp only [readMembers] at hvalue
      split at hvalue
      · cases hvalue
      · next hread => exact ih hmembers.2 (kept_read h hkept hmembers.1 hread) hvalue

/-- A tagged value has the property that contents of every kind have, also where the content stands first. -/
theorem gives (h : ∀ kind, Gives limit (tagged.content kind) Q) : Gives limit tagged.decode Q := by
  intro draft value hdraft hvalue
  match draft with
  | .object members unclosed => exact of_readMembers h hdraft (show Kept limit Q .empty from trivial) hvalue
  | .array [] _ => cases hvalue
  | .array [kind] _ =>
    obtain ⟨_, _, hvalue⟩ := exists_bind_eq_ok hvalue
    cases hvalue
  | .array (kind :: content :: rest) unclosed =>
    obtain ⟨kind, _, hvalue⟩ := exists_bind_eq_ok hvalue
    obtain ⟨x, hx, hvalue⟩ := exists_bind_eq_ok hvalue
    split at hvalue
    · cases hvalue
    · cases hvalue
    · exact Except.ok.inj hvalue ▸ h kind _ _ hdraft.2.2.1 hx
  | .absent | .stray | .broken .. | .unreadable | .null | .bool _ | .number _ | .text _ | .hollow | .ordinal _ |
    .deep _ => cases hvalue

end Tagged

/-! ## Registries -/

theorem Placeholder.gives : Gives limit decode fun token => token.index < indexLimit := by
  intro draft token _ h
  obtain ⟨text, _, h⟩ := exists_bind_eq_ok h
  split at h
  · next hparse => exact Except.ok.inj h ▸ (parse?_eq_some.mp hparse).2
  · cases h

theorem Usages.count_set (usages : Usages) (kind kind' : UsageKind) (n : Nat) :
    (usages.set kind n).count kind' = if kind = kind' then n else usages.count kind' := by
  cases kind <;> cases kind' <;> rfl

theorem Usages.gives : Gives limit decode fun usages => ∀ kind, usages.count kind < wordLimit := by
  have set {uses : List (UsageKind × Nat)} {usages : Usages} (huses : ∀ use ∈ uses, use.2 < wordLimit)
      (husages : ∀ kind, usages.count kind < wordLimit) :
      ∀ kind, (uses.foldl (fun usages use => usages.set use.1 use.2) usages).count kind < wordLimit := by
    induction uses generalizing usages with
    | nil => exact husages
    | cons use uses ih =>
      obtain ⟨huse, huses⟩ := List.forall_mem_cons.mp huses
      refine ih huses fun kind => ?_
      rw [count_set]
      split
      · exact huse
      · exact husages kind
  refine Gives.count.entries.map fun uses huses => set huses fun kind => ?_
  cases kind <;> decide

theorem TrackedEntry.gives : Gives limit decode InRange := by
  refine Record.Gives.decode <| .defaulted (.required (.optional (.required (.required (Record.gives_pure ?_)
    .any) .any) Placeholder.gives) .count) Usages.gives fun kind => ?_
  · exact fun _ _ _ _ _ hplaceholder _ hmatch _ husages => ⟨hmatch, husages, hplaceholder⟩
  · cases kind <;> decide

theorem mem_of_mem_latest {α : Type} {members : List (String × α)} {member : String × α} (h : member ∈ latest members) :
    member ∈ members := by
  induction members with
  | nil => exact h
  | cons first members ih =>
    rw [latest] at h
    split at h
    · exact List.mem_cons_of_mem _ (ih h)
    · rcases List.mem_cons.mp h with rfl | h
      · exact List.mem_cons_self
      · exact List.mem_cons_of_mem _ (ih h)

theorem Registry.gives : Gives limit decode InRange := by
  refine (Gives.entries TrackedEntry.gives).map fun members hmembers entry hentry => ?_
  obtain ⟨member, hmember, rfl⟩ := List.mem_map.mp (mem_of_mem_ofEntries hentry)
  exact hmembers member (mem_of_mem_latest (List.mem_mergeSort.mp hmember))

/-! ## Jobs -/

def TrackedEntry.IsNumbered (entry : TrackedEntry) : Prop :=
  ∀ token ∈ entry.placeholder, token.index < Placeholder.indexLimit

/-- A tracking request of so many bytes: its text and its fields fit in them, and its tokens have indices of 64 bits. -/
structure TrackingRequest.Admitted (limit : Nat) (request : TrackingRequest) : Prop where
  text : byteLength request.specText.toList ≤ limit
  fields : 2 * request.knownFields.length ≤ limit + 1
  tokens : ∀ entry ∈ request.previousTrackedFields.entries, entry.IsNumbered

theorem TrackingRequest.gives : Gives limit decode (Admitted limit) := by
  refine Record.Gives.decode <| .defaulted (.defaulted (.defaulted (.defaulted (.required (.required
    (Record.gives_pure ?_) .text) .list) Registry.gives ?_) .any trivial) .any trivial) .any trivial
  · exact fun _ htext _ hfields _ hprevious _ _ _ _ _ _ =>
      ⟨htext, hfields, fun entry hentry => (hprevious entry hentry).placeholder⟩
  · exact fun _ hentry => absurd hentry List.not_mem_nil

def JobPayload.Admitted (limit : Nat) : JobPayload → Prop
  | .tracking request => request.Admitted limit
  | .tokenization _ | .remapping _ => True

theorem JobPayload.gives : Gives limit decode (Admitted limit) := by
  refine Tagged.gives fun kind => ?_
  cases kind with
  | tracking => exact TrackingRequest.gives.map fun _ h => h
  | tokenization => exact Gives.any.map fun _ _ => trivial
  | remapping => exact Gives.any.map fun _ _ => trivial

/-- The job that bytes are decoded to is one of so many bytes. -/
theorem JobRequest.admitted_of_ofBytes {bytes : ByteArray} {request : JobRequest} (h : ofBytes bytes = .ok request) :
    request.payload.Admitted bytes.size := by
  have hgives : Gives bytes.size decode fun request => request.payload.Admitted bytes.size := by
    refine Record.Gives.decode <| .required (.required (Record.gives_pure ?_) .any) JobPayload.gives
    exact fun _ _ _ hpayload => hpayload
  unfold ofBytes Document.decode at h
  split at h
  · cases h
  · next hdecode =>
    split at h
    · cases h
    · exact Except.ok.inj h ▸ hgives _ _ (Document.bounded_ofBytes bytes) hdecode

end FieldRemap
