/-
  FieldRemap.Proofs.Decoding — decoders that give back what was encoded.

  A value is carried by a JSON value when that is read as it is printed and the decoder has the
  value of it again (`Carried`). Each decoder that is made of others carries what these do: an
  array its items, an object the entries of a map, a record its fields one by one (`Yields`),
  and a tagged value its kind before its content. Optional fields are carried whether they are
  there or not.
-/

import FieldRemap.Json.Tagged
import FieldRemap.Proofs.Printing
import FieldRemap.Wire.Dataset

namespace FieldRemap

/-! ## Lists of values -/

theorem Draft.ofItems_eq_map (items : List Json) : ofItems items = items.map ofJson := by
  induction items with
  | nil => rfl
  | cons item items ih => rw [ofItems, ih, List.map_cons]

namespace Json

theorem fitsItems_iff {room : Nat} {items : List Json} :
    fitsItems room items = true ↔ ∀ item ∈ items, item.fits room = true := by
  induction items with
  | nil => simp [fitsItems]
  | cons item items ih => simp [fitsItems, ih]

theorem fitsMembers_iff {room : Nat} {members : List (String × Json)} :
    fitsMembers room members = true ↔ ∀ member ∈ members, member.2.fits room = true := by
  induction members with
  | nil => simp [fitsMembers]
  | cons member members ih =>
    obtain ⟨key, value⟩ := member
    simp [fitsMembers, ih]

end Json

/-! ## Values -/

structure Carried {α : Type} (decode : Draft → Except JsonFault α) (room : Nat) (json : Json) (value : α) : Prop where
  fits : json.fits room = true
  reads : decode (.ofJson json) = .ok value

/-- A word is looked up where no two words are alike. -/
theorem Draft.lookUpWord_of_mem {α : Type} {words : List (String × α)} {word : String} {value : α}
    (hdistinct : (words.map (·.1)).Nodup) (h : (word, value) ∈ words) : lookUpWord words word = .ok value := by
  have hfind : words.find? (·.1 == word) = some (word, value) := find?_of_nodup_map hdistinct h
  rw [lookUpWord, hfind]

namespace Carried

variable {α β : Type} {decode : Draft → Except JsonFault α} {room : Nat}

theorem text (value : String) : Carried Draft.decodeText room (.text value) value :=
  ⟨rfl, rfl⟩

theorem bool (value : Bool) : Carried Draft.decodeBool room (.bool value) value :=
  ⟨rfl, rfl⟩

theorem count {n : Nat} (h : n < wordLimit) : Carried Draft.decodeCount room (.count n) n :=
  ⟨decide_eq_true h, rfl⟩

theorem word {words : List (String × α)} {word : String} {value : α} (hdistinct : (words.map (·.1)).Nodup)
    (h : (word, value) ∈ words) : Carried (Draft.decodeWord words) room (.text word) value :=
  ⟨rfl, Draft.lookUpWord_of_mem hdistinct h⟩

/-- An array carries a list when each item carries the value in its place. -/
theorem list {values : List α} {toJson : α → Json} (h : ∀ value ∈ values, Carried decode room (toJson value) value) :
    Carried (Draft.decodeList decode) (room + 1) (.array (values.map toJson)) values := by
  constructor
  · rw [Json.fits, Nat.add_sub_cancel, Json.fitsItems_iff.mpr]
    · rfl
    · intro item hitem
      obtain ⟨value, hvalue, rfl⟩ := List.mem_map.mp hitem
      exact (h value hvalue).fits
  · have hitems : (Draft.ofItems (values.map toJson)).mapM decode = .ok values := by
      rw [Draft.ofItems_eq_map]
      induction values with
      | nil => rfl
      | cons value values ih =>
        obtain ⟨hvalue, hvalues⟩ := List.forall_mem_cons.mp h
        rw [List.map_cons, List.map_cons, List.mapM_cons, hvalue.reads, ih hvalues]
        rfl
    simp only [Draft.ofJson, Draft.decodeList, hitems]

/-- An object carries the entries of a map when each member carries the entry in its place. -/
theorem entries {κ ε : Type} {decodeKey : String → Except JsonFault κ} {entries : List ε} {name : ε → String}
    {toJson : ε → Json} {key : ε → κ} {value : ε → α}
    (hkey : ∀ entry ∈ entries, decodeKey (name entry) = .ok (key entry))
    (hvalue : ∀ entry ∈ entries, Carried decode room (toJson entry) (value entry)) :
    Carried (Draft.decodeEntries decodeKey decode) (room + 1)
      (.object (entries.map fun entry => (name entry, toJson entry)))
      (entries.map fun entry => (key entry, value entry)) := by
  constructor
  · rw [Json.fits, Nat.add_sub_cancel, Json.fitsMembers_iff.mpr]
    · rfl
    · intro member hmember
      obtain ⟨entry, hentry, rfl⟩ := List.mem_map.mp hmember
      exact (hvalue entry hentry).fits
  · show Draft.decodeMembers decodeKey decode none _ = _
    induction entries with
    | nil => rfl
    | cons entry entries ih =>
      obtain ⟨hname, hnames⟩ := List.forall_mem_cons.mp hkey
      obtain ⟨hentry, hentries⟩ := List.forall_mem_cons.mp hvalue
      simp only [List.map_cons, Draft.ofMembers, Draft.decodeMembers, hname, hentry.reads, ih hnames hentries]
      rfl

theorem map {json : Json} {value : α} (h : Carried decode room json value) (f : α → β) :
    Carried (fun draft => (decode draft).map f) room json (f value) := by
  refine ⟨h.fits, ?_⟩
  rw [h.reads]
  rfl

end Carried

/-! ## Records -/

namespace Record

variable {α β : Type} {room : Nat}

theorem readMembers_append {record : Record α} {state next : record.State} {members : List (String × Json)}
    (h : record.readMembers none state (Draft.ofMembers members) = .ok next) (others : List (String × Json)) :
    record.readMembers none state (Draft.ofMembers (members ++ others)) =
      record.readMembers none next (Draft.ofMembers others) := by
  induction members generalizing state with
  | nil =>
    obtain rfl : state = next := Except.ok.inj h
    rfl
  | cons member members ih =>
    obtain ⟨key, value⟩ := member
    simp only [List.cons_append, Draft.ofMembers, readMembers] at h ⊢
    split at h
    · cases h
    · exact ih h
    · split at h
      · cases h
      · exact ih h

def both (function : Record (α → β)) (argument : Record α) (state : function.State) (held : argument.State) :
    (function.app argument).State :=
  (state, held)

section App

variable {function : Record (α → β)} {argument : Record α} {members : List (String × Json)}

theorem read_both (state : function.State) (held : argument.State) (key : String) (value : Draft) :
    (function.app argument).read (both function argument state held) key value =
      match function.read state key value with
      | some result => some (result.map (both function argument · held))
      | none => (argument.read held key value).map (·.map (both function argument state)) :=
  rfl

theorem finish_both {state : function.State} {f : α → β} (h : function.finish state = .ok f) (held : argument.State) :
    (function.app argument).finish (both function argument state held) = (argument.finish held).map f := by
  simp only [app, both, h]
  cases argument.finish held <;> rfl

/-- Members of no field of the second record are read as by the first alone. -/
theorem readMembers_first (h : ∀ member ∈ members, ∀ state value, argument.read state member.1 value = none)
    (state : function.State) (held : argument.State) :
    (function.app argument).readMembers none (both function argument state held) (Draft.ofMembers members) =
      (function.readMembers none state (Draft.ofMembers members)).map (both function argument · held) := by
  induction members generalizing state with
  | nil => rfl
  | cons member members ih =>
    obtain ⟨key, value⟩ := member
    obtain ⟨hmember, hmembers⟩ := List.forall_mem_cons.mp h
    simp only [Draft.ofMembers, readMembers, read_both]
    cases function.read state key (.ofJson value) with
    | none =>
      simp only [show argument.read held key (.ofJson value) = none from hmember held _, Option.map_none]
      split
      · rfl
      · exact ih hmembers state
    | some result =>
      cases result with
      | error => rfl
      | ok next => exact ih hmembers next

/-- Members of no field of the first record are read as by the second alone. -/
theorem readMembers_second (h : ∀ member ∈ members, ∀ state value, function.read state member.1 value = none)
    (state : function.State) (held : argument.State) :
    (function.app argument).readMembers none (both function argument state held) (Draft.ofMembers members) =
      (argument.readMembers none held (Draft.ofMembers members)).map (both function argument state) := by
  induction members generalizing held with
  | nil => rfl
  | cons member members ih =>
    obtain ⟨key, value⟩ := member
    obtain ⟨hmember, hmembers⟩ := List.forall_mem_cons.mp h
    simp only [Draft.ofMembers, readMembers, read_both,
      show function.read state key (.ofJson value) = none from hmember state _]
    cases argument.read held key (.ofJson value) with
    | none =>
      simp only [Option.map_none]
      split
      · rfl
      · exact ih hmembers held
    | some result =>
      cases result with
      | error => rfl
      | ok next => exact ih hmembers next

end App

/-- A record has a value of members that are all fields of it, and reads no name that is none of its own. -/
structure Yields (record : Record α) (room : Nat) (members : List (String × Json)) (value : α) : Prop where
  fits : Json.fitsMembers room members = true
  named : ∀ member ∈ members, member.1 ∈ record.names
  passes : ∀ key ∉ record.names, ∀ state value, record.read state key value = none
  finishes : ∃ state, record.readMembers none record.start (Draft.ofMembers members) = .ok state ∧
    record.finish state = .ok value

theorem yields_pure (value : α) : (Record.pure value).Yields room [] value where
  fits := rfl
  named := nofun
  passes _ _ _ _ := rfl
  finishes := ⟨(), rfl, rfl⟩

section Field

variable {name : String} {decode : Draft → Except JsonFault α}

theorem read_field_of_ne {default : Option α} {key : String} (h : key ∉ (field name decode default).names)
    (state : (field name decode default).State) (value : Draft) :
    (field name decode default).read state key value = none :=
  if_neg fun heq => h (List.mem_singleton.mpr heq)

/-- A field that is given, whether it has a default or not. -/
theorem yields_given {default : Option α} {json : Json} {value : α} (h : Carried decode room json value) :
    (field name decode default).Yields room [(name, json)] value where
  fits := Json.fitsMembers_iff.mpr (List.forall_mem_singleton.mpr h.fits)
  named member hmember := by
    rw [List.mem_singleton.mp hmember]
    exact List.mem_cons_self
  passes _ hkey := read_field_of_ne hkey
  finishes := by
    refine ⟨some value, ?_, rfl⟩
    simp [Draft.ofMembers, readMembers, field, h.reads, Except.map]

/-- A field that is missing and has a default. -/
theorem yields_default (default : α) : (field name decode (some default)).Yields room [] default where
  fits := rfl
  named := nofun
  passes _ hkey := read_field_of_ne hkey
  finishes := ⟨none, rfl, rfl⟩

end Field

namespace Yields

variable {function : Record (α → β)} {members : List (String × Json)} {f : α → β} {name : String}
  {decode : Draft → Except JsonFault α}

/-- Two records without a common field read their members one after the other. -/
theorem app {argument : Record α} {others : List (String × Json)} {value : α} (h : function.Yields room members f)
    (hargument : argument.Yields room others value) (hdisjoint : ∀ key ∈ argument.names, key ∉ function.names) :
    (function.app argument).Yields room (members ++ others) (f value) where
  fits := by
    rw [Json.fitsMembers_iff, List.forall_mem_append]
    exact ⟨Json.fitsMembers_iff.mp h.fits, Json.fitsMembers_iff.mp hargument.fits⟩
  named := by
    rw [List.forall_mem_append]
    constructor
    · intro member hmember
      exact List.mem_append_left _ (h.named member hmember)
    · intro member hmember
      exact List.mem_append_right _ (hargument.named member hmember)
  passes := by
    intro key hkey state value
    have hkeys : key ∉ function.names ∧ key ∉ argument.names := by simpa [Record.app] using hkey
    simp [Record.app, h.passes key hkeys.1, hargument.passes key hkeys.2]
  finishes := by
    obtain ⟨state, hstate, hfinish⟩ := h.finishes
    obtain ⟨held, hheld, hvalue⟩ := hargument.finishes
    refine ⟨both function argument state held, ?_, ?_⟩
    · have hmembers : ∀ member ∈ members, ∀ state value, argument.read state member.1 value = none := by
        intro member hmember
        exact hargument.passes _ fun hname => hdisjoint _ hname (h.named member hmember)
      have hothers : ∀ member ∈ others, ∀ state value, function.read state member.1 value = none := by
        intro member hmember
        exact h.passes _ (hdisjoint _ (hargument.named member hmember))
      have hfirst := readMembers_first hmembers function.start argument.start
      rw [hstate] at hfirst
      have hsecond := readMembers_second hothers state argument.start
      rw [hheld] at hsecond
      exact (readMembers_append hfirst others).trans hsecond
    · rw [finish_both hfinish, hvalue]
      rfl

variable {json : Json} {value : α}

theorem required (h : function.Yields room members f) (hvalue : Carried decode room json value)
    (hname : name ∉ function.names) :
    (function.required name decode).Yields room (members ++ [(name, json)]) (f value) :=
  h.app (yields_given hvalue) (List.forall_mem_singleton.mpr hname)

theorem defaulted {default : α} (h : function.Yields room members f) (hvalue : Carried decode room json value)
    (hname : name ∉ function.names) :
    (function.defaulted name decode default).Yields room (members ++ [(name, json)]) (f value) :=
  h.app (yields_given hvalue) (List.forall_mem_singleton.mpr hname)

/-- A field that may be missing, and is written as a text when it is there. -/
theorem optional {function : Record (Option α → β)} {f : Option α → β} {value : Option α} {text : α → String}
    (h : function.Yields room members f) (hvalue : ∀ x ∈ value, Carried decode room (.text (text x)) x)
    (hname : name ∉ function.names) :
    (function.optional name decode).Yields room (members ++ (value.map fun x => (name, .text (text x))).toList)
      (f value) := by
  refine h.app ?_ (List.forall_mem_singleton.mpr hname)
  cases value with
  | none => exact yields_default none
  | some x =>
    have hx := hvalue x rfl
    have hread : Carried (Draft.decodeOption decode) room (.text (text x)) (some x) :=
      ⟨rfl, (congrArg (Except.map some) hx.reads).trans rfl⟩
    exact yields_given hread

/-- An object of the members carries the value. -/
theorem carriedObject {record : Record α} (h : record.Yields room members value) :
    Carried record.decodeObject (room + 1) (.object members) value := by
  obtain ⟨state, hstate, hfinish⟩ := h.finishes
  refine ⟨h.fits, ?_⟩
  rw [Draft.ofJson, Record.decodeObject, hstate]
  exact hfinish

theorem carried {record : Record α} (h : record.Yields room members value) :
    Carried record.decode (room + 1) (.object members) value :=
  ⟨h.carriedObject.fits, h.carriedObject.reads⟩

end Yields

end Record

/-! ## Tagged values -/

/-- The kind stands first, so that the content is read as what it is. -/
theorem Tagged.carried {κ α : Type} {tagged : Tagged κ α} {room : Nat} {kindJson json : Json} {kind : κ} {value : α}
    (hkind : Carried tagged.tag room kindJson kind) (hvalue : Carried (tagged.content kind) room json value)
    (hne : tagged.contentName ≠ tagged.tagName) :
    Carried tagged.decode (room + 1) (.object [(tagged.tagName, kindJson), (tagged.contentName, json)]) value := by
  constructor
  · rw [Json.fits, Nat.add_sub_cancel, Json.fitsMembers, Json.fitsMembers, hkind.fits, hvalue.fits]
    rfl
  · simp [Draft.ofJson, Draft.ofMembers, Tagged.decode, Tagged.readMembers, Tagged.read, hne, hkind.reads,
      hvalue.reads, Except.map]

/-! ## Documents -/

/-- The bytes of a value's compact text are decoded to what it carries. -/
theorem Carried.ofBytes_compact {α : Type} {decode : Draft → Except JsonFault α} {json : Json} {value : α}
    (h : Carried decode Document.maxDepth json value) :
    (Document.ofBytes json.compact.toUTF8).decode decode = .ok value := by
  rw [Document.ofBytes_compact h.fits, Document.decode]
  simp only [h.reads]
  rfl

end FieldRemap
