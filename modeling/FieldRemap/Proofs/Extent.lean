/-
  FieldRemap.Proofs.Extent — what is read is no longer than what it is read from.

  An escape is longer than the character it stands for, and two items of an array have a comma
  between them. So the texts and the arrays of a draft are bounded by the bytes it is read from, and
  its natural numbers have 64 bits (`Document.bounded_ofBytes`): by induction along the reader's
  calls, each of which leaves fewer bytes than it was given (`Shrinks`). A value that is read as a
  whole keeps the bounds of the draft it is made of (`Draft.bounded_ofWhole`).
-/

import FieldRemap.Proofs.Derivation
import FieldRemap.Proofs.Span

namespace FieldRemap

namespace JsonInput

def size (c : Option Char) : Nat :=
  (c.map Char.utf8Size).getD 1

theorem size_pos (c : Option Char) : 0 < size c := by
  cases c with
  | none => exact Nat.one_pos
  | some c => exact c.utf8Size_pos

@[simp] theorem byteLength_nil : byteLength [] = 0 := rfl

@[simp] theorem byteLength_cons (c : Option Char) (input : JsonInput) :
    byteLength (c :: input) = size c + byteLength input := by
  have hshift : ∀ (input : JsonInput) (start : Nat),
      input.foldl (fun length c => length + (c.map Char.utf8Size).getD 1) start = start + byteLength input := by
    intro input
    induction input with
    | nil => intro start; rfl
    | cons c input ih =>
      intro start
      rw [byteLength, List.foldl_cons, List.foldl_cons, ih, ih]
      omega
  rw [byteLength, List.foldl_cons, hshift, Nat.zero_add]
  rfl

@[simp] theorem byteLength_append (a b : JsonInput) : byteLength (a ++ b) = byteLength a + byteLength b := by
  induction a with
  | nil => simp
  | cons c a ih =>
    rw [List.cons_append, byteLength_cons, byteLength_cons, ih]
    omega

@[simp] theorem byteLength_map_some (text : List Char) : byteLength (text.map some) = FieldRemap.byteLength text := by
  induction text with
  | nil => rfl
  | cons c text ih =>
    rw [List.map_cons, byteLength_cons, ih]
    rfl

theorem byteLength_dropWhile_le (p : Option Char → Bool) (input : JsonInput) :
    byteLength (input.dropWhile p) ≤ byteLength input := by
  induction input with
  | nil => exact Nat.le_refl _
  | cons c input ih =>
    rw [List.dropWhile_cons]
    split
    · rw [byteLength_cons]
      omega
    · exact Nat.le_refl _

end JsonInput

/-! ## Characters -/

theorem utf8Size_le_of_toNat {c : Char} {n : Nat} (h : c.toNat ≤ n) :
    (n < 0x80 → c.utf8Size ≤ 1) ∧ (n < 0x800 → c.utf8Size ≤ 2) ∧ (n < 0x10000 → c.utf8Size ≤ 3) := by
  have hval : c.val.toNat ≤ n := h
  unfold Char.utf8Size
  simp only [UInt32.le_iff_toNat_le]
  refine ⟨fun hn => ?_, fun hn => ?_, fun hn => ?_⟩
  all_goals (repeat' split) <;> simp_all <;> omega

/-- The character of a number is the first one if there is none of that number. -/
theorem toNat_ofNat_le (n : Nat) : (Char.ofNat n).toNat ≤ n := by
  by_cases h : n.isValidChar
  · rw [Char.ofNat, dif_pos h]
    exact Nat.le_refl n
  · rw [Char.ofNat, dif_neg h]
    exact Nat.zero_le n

theorem utf8Size_ofNat_le {n width : Nat} (h : n < 0x80 ∧ width = 1 ∨ n < 0x800 ∧ width = 2 ∨
    n < 0x10000 ∧ width = 3 ∨ width = 4) : (Char.ofNat n).utf8Size ≤ width := by
  obtain ⟨one, two, three⟩ := utf8Size_le_of_toNat (toNat_ofNat_le n)
  rcases h with ⟨hn, rfl⟩ | ⟨hn, rfl⟩ | ⟨hn, rfl⟩ | rfl
  · exact one hn
  · exact two hn
  · exact three hn
  · exact Char.utf8Size_le_four _

theorem continues_iff {low high : Nat} {byte : UInt8} :
    continues low high byte = true ↔ low ≤ byte.toNat ∧ byte.toNat ≤ high := by
  simp [continues]

/-- A character takes no more bytes than it is spelled with. -/
theorem firstChar?_eq_some {bytes : List UInt8} {c : Char} {width : Nat} (h : firstChar? bytes = some (c, width)) :
    c.utf8Size ≤ width ∧ 1 ≤ width ∧ width ≤ bytes.length := by
  cases bytes with
  | nil => cases h
  | cons a rest =>
    simp only [firstChar?] at h
    split at h
    · next hlead =>
      obtain ⟨rfl, rfl⟩ := Prod.mk.inj (Option.some.inj h)
      exact ⟨utf8Size_ofNat_le (.inl ⟨hlead, rfl⟩), Nat.le_refl 1, by simp⟩
    · split at h
      · next hlead =>
        simp only [Bool.and_eq_true, decide_eq_true_eq] at hlead
        split at h
        · obtain ⟨hb, heq⟩ := Option.ite_none_right_eq_some.mp h
          have := continues_iff.mp hb
          obtain ⟨rfl, rfl⟩ := Prod.mk.inj (Option.some.inj heq)
          exact ⟨utf8Size_ofNat_le (.inr (.inl ⟨by omega, rfl⟩)), by omega, by simp⟩
        · cases h
      · split at h
        · next hlead =>
          simp only [Bool.and_eq_true, decide_eq_true_eq] at hlead
          split at h
          · obtain ⟨hbc, heq⟩ := Option.ite_none_right_eq_some.mp h
            obtain ⟨hb, hc⟩ := (Bool.and_eq_true _ _).mp hbc
            have hb := (continues_iff.mp hb).2.trans (show _ ≤ 0xBF by split <;> decide)
            have hc := (continues_iff.mp hc).2
            obtain ⟨rfl, rfl⟩ := Prod.mk.inj (Option.some.inj heq)
            exact ⟨utf8Size_ofNat_le (.inr (.inr (.inl ⟨by omega, rfl⟩))), by omega, by simp⟩
          · cases h
        · split at h
          · split at h
            · obtain ⟨-, heq⟩ := Option.ite_none_right_eq_some.mp h
              obtain ⟨rfl, rfl⟩ := Prod.mk.inj (Option.some.inj heq)
              exact ⟨Char.utf8Size_le_four _, by omega, by simp⟩
            · cases h
          · cases h

theorem byteLength_decodeLossy_le (passed : Nat) (bytes : List UInt8) :
    JsonInput.byteLength (decodeLossy passed bytes) ≤ bytes.length - passed := by
  induction bytes generalizing passed with
  | nil => exact Nat.zero_le _
  | cons byte rest ih =>
    cases passed with
    | succ passed =>
      rw [decodeLossy, List.length_cons, Nat.add_sub_add_right]
      exact ih passed
    | zero =>
      simp only [decodeLossy]
      split
      · next c width hfirst =>
        obtain ⟨hsize, hpos, hwidth⟩ := firstChar?_eq_some hfirst
        have := ih (width - 1)
        rw [List.length_cons] at hwidth
        simp only [JsonInput.byteLength_cons, JsonInput.size, Option.map_some, Option.getD_some, List.length_cons]
        omega
      · have := ih 0
        simp only [JsonInput.byteLength_cons, JsonInput.size, Option.map_none, Option.getD_none, List.length_cons]
        omega

theorem length_toList (bytes : ByteArray) : bytes.toList.length = bytes.size := by
  rw [toList_eq_data, Array.length_toList, ByteArray.size_data]

theorem size_toByteArray (text : String) : text.toByteArray.size = byteLength text.toList := by
  have hencode : ∀ chars : List Char, chars.utf8Encode.size = byteLength chars := by
    intro chars
    induction chars with
    | nil => rfl
    | cons c chars ih =>
      rw [List.utf8Encode_cons, ByteArray.size_append, ih, byteLength_cons]
      simp [List.utf8Encode_singleton]
  rw [← hencode, ← String.toByteArray_ofList, String.ofList_toList]

/-- The characters that are read take no more bytes than there are. -/
theorem byteLength_decodeUtf8_le (bytes : ByteArray) : JsonInput.byteLength (decodeUtf8 bytes) ≤ bytes.size := by
  unfold decodeUtf8
  split
  · next text htext =>
    unfold String.fromUTF8? at htext
    split at htext
    · next hvalid =>
      obtain rfl := Option.some.inj htext
      rw [JsonInput.byteLength_map_some, ← size_toByteArray]
      exact Nat.le_refl _
    · cases htext
  · have := byteLength_decodeLossy_le 0 bytes.toList
    rwa [length_toList] at this

/-! ## Strings -/

namespace Spelling

theorem utf8Size_of_simpleEscape? {c d : Char} (h : simpleEscape? c = some d) : d.utf8Size = 1 := by
  simp only [simpleEscape?] at h
  (repeat' split at h) <;> cases h <;> decide

/-- An escape with its backslash takes no fewer bytes than its character. -/
theorem utf8Size_of_escape {input : JsonInput} {c : Char} {length : Nat} (h : escape input = .ok (c, length)) :
    c.utf8Size ≤ length + 1 := by
  have hfour := c.utf8Size_le_four
  cases input with
  | nil => cases h
  | cons e input =>
    cases e with
    | none => cases h
    | some e =>
      simp only [escape] at h
      split at h
      · cases hunit : unit input with
        | error fault =>
          rw [hunit] at h
          cases h
        | ok n =>
          rw [hunit, Except.bind] at h
          split at h
          · cases h
          · split at h
            · obtain ⟨low, -, heq⟩ := Numeral.exists_map_eq_ok h
              obtain ⟨-, rfl⟩ := Prod.mk.inj heq
              omega
            · obtain ⟨-, rfl⟩ := Prod.mk.inj (Except.ok.inj h)
              omega
      · split at h
        · next hsimple =>
          obtain ⟨rfl, rfl⟩ := Prod.mk.inj (Except.ok.inj h)
          have := utf8Size_of_simpleEscape? hsimple
          omega
        · cases h

/-- A string takes the bytes of its characters, of what is passed over and of its closing quote. -/
theorem byteLength_of_readFrom {skipped : Nat} {input rest : JsonInput} {text : List (Option Char)}
    (h : readFrom skipped input = .ok (text, rest)) :
    skipped + JsonInput.byteLength text + JsonInput.byteLength rest < JsonInput.byteLength input := by
  induction input generalizing skipped text with
  | nil => cases h
  | cons c input ih =>
    have hc := JsonInput.size_pos c
    rw [JsonInput.byteLength_cons]
    -- what is read of a character and behind it
    have behind {skipped : Nat} {d : Option Char}
        (h : (readFrom skipped input).map (fun x => (d :: x.1, x.2)) = .ok (text, rest)) :
        skipped + JsonInput.byteLength text + JsonInput.byteLength rest <
          JsonInput.size d + JsonInput.byteLength input := by
      obtain ⟨x, hread, heq⟩ := Numeral.exists_map_eq_ok h
      obtain ⟨rfl, rfl⟩ := Prod.mk.inj heq
      have := ih hread
      rw [JsonInput.byteLength_cons]
      omega
    cases skipped with
    | succ skipped =>
      have := ih (show readFrom skipped input = .ok (text, rest) from h)
      omega
    | zero =>
      cases c with
      | none => exact behind h
      | some c =>
        simp only [readFrom] at h
        split at h
        · obtain ⟨rfl, rfl⟩ := Prod.mk.inj (Except.ok.inj h)
          rw [JsonInput.byteLength_nil]
          omega
        · split at h
          · split at h
            · cases h
            · next d length hescape =>
              have := behind h
              have hd : JsonInput.size (some d) ≤ length + 1 := utf8Size_of_escape hescape
              omega
          · split at h
            · cases h
            · exact behind h

theorem byteLength_of_passFrom {skipped : Nat} {input rest : JsonInput} (h : passFrom skipped input = .ok rest) :
    JsonInput.byteLength rest < JsonInput.byteLength input := by
  induction input generalizing skipped with
  | nil => cases h
  | cons c input ih =>
    have hc := JsonInput.size_pos c
    rw [JsonInput.byteLength_cons]
    have behind {skipped : Nat} (h : passFrom skipped input = .ok rest) :
        JsonInput.byteLength rest < JsonInput.size c + JsonInput.byteLength input := by
      have := ih h
      omega
    cases skipped with
    | succ skipped => exact behind h
    | zero =>
      cases c with
      | none => exact behind h
      | some c =>
        simp only [passFrom] at h
        split at h
        · obtain rfl := Except.ok.inj h
          omega
        · split at h
          · split at h
            · cases h
            · exact behind h
          · split at h
            · cases h
            · exact behind h

theorem whole?_eq_some {text : List (Option Char)} {chars : List Char} (h : whole? text = some chars) :
    text = chars.map some := by
  induction text generalizing chars with
  | nil =>
    obtain rfl := Option.some.inj h
    rfl
  | cons c text ih =>
    rw [whole?, List.mapM_cons] at h
    obtain ⟨d, hd, h⟩ := Option.bind_eq_some_iff.mp h
    obtain ⟨ds, hds, h⟩ := Option.bind_eq_some_iff.mp h
    obtain rfl := Option.some.inj h
    rw [ih hds, List.map_cons]
    exact congrArg (· :: ds.map some) hd

end Spelling

/-- A string is shorter than what it is read from, and so is what follows it. -/
theorem SpelledText.byteLength_of_read {input rest : JsonInput} {text : Except JsonFault String}
    (h : read input = .closed text rest) : JsonInput.byteLength rest < JsonInput.byteLength input ∧
      ∀ value, text = .ok value → byteLength value.toList ≤ JsonInput.byteLength input := by
  refine ⟨Spelling.byteLength_of_passFrom (passFrom_of_read h), ?_⟩
  rintro value rfl
  unfold read at h
  split at h
  · next hread =>
    have hlength := Spelling.byteLength_of_readFrom hread
    split at h
    · next chars hwhole =>
      obtain ⟨hvalue, -⟩ := SpelledText.closed.inj h
      obtain rfl := Except.ok.inj hvalue
      rw [Spelling.whole?_eq_some hwhole, JsonInput.byteLength_map_some] at hlength
      rw [String.toList_ofList]
      omega
    · cases (SpelledText.closed.inj h).1
  · split at h
    · cases (SpelledText.closed.inj h).1
    · cases h

/-! ## Drafts -/

namespace Draft

mutual

/-- No text takes more bytes than the limit, no array has more items than are spelled in so many, and the natural
    numbers have 64 bits. -/
def Bounded (limit : Nat) : Draft → Prop
  | .number (.natural n) | .ordinal n => n < wordLimit
  | .text value => byteLength value.toList ≤ limit
  | .array items _ => 2 * items.length ≤ limit + 1 ∧ BoundedItems limit items
  | .object members _ => BoundedMembers limit members
  | .deep inner => Bounded limit inner
  | _ => True

def BoundedItems (limit : Nat) : List Draft → Prop
  | [] => True
  | item :: rest => Bounded limit item ∧ BoundedItems limit rest

def BoundedMembers (limit : Nat) : List (Option (Except JsonFault String) × Draft) → Prop
  | [] => True
  | (_, value) :: rest => Bounded limit value ∧ BoundedMembers limit rest

end

variable {limit : Nat}

theorem boundedItems_iff {items : List Draft} : BoundedItems limit items ↔ ∀ item ∈ items, item.Bounded limit := by
  induction items with
  | nil => simp [BoundedItems]
  | cons item items ih => simp [BoundedItems, ih]

theorem length_itemsToJson {items : List Draft} {values : List Json} (h : itemsToJson items = .ok values) :
    values.length = items.length := by
  induction items generalizing values with
  | nil =>
    obtain rfl := Except.ok.inj h
    rfl
  | cons item items ih =>
    rw [itemsToJson] at h
    split at h
    · cases h
    · obtain ⟨others, hothers, rfl⟩ := Numeral.exists_map_eq_ok h
      rw [List.length_cons, List.length_cons, ih hothers]

theorem length_ofWholeItems (values : List Json) : (ofWholeItems values).length = values.length := by
  induction values with
  | nil => rfl
  | cons value values ih => rw [ofWholeItems, List.length_cons, List.length_cons, ih]

theorem bounded_ofWhole_object {members : List (String × Json)} (h : BoundedMembers limit (ofWholeMembers members)) :
    (ofWhole (.object members)).Bounded limit := by
  cases members with
  | nil => trivial
  | cons => exact h

mutual

/-- A value that is read as a whole is as bounded as the draft it is made of. -/
theorem bounded_ofWhole {draft : Draft} {value : Json} (h : draft.Bounded limit) (hvalue : draft.toJson = .ok value) :
    (ofWhole value).Bounded limit := by
  cases draft with
  | null | bool =>
    obtain rfl := Except.ok.inj hvalue
    trivial
  | number value =>
    obtain rfl := Except.ok.inj hvalue
    cases value <;> exact h
  | text | ordinal =>
    obtain rfl := Except.ok.inj hvalue
    exact h
  | hollow =>
    obtain rfl := Except.ok.inj hvalue
    trivial
  | absent | stray | broken | unreadable | deep => cases hvalue
  | array items unclosed =>
    simp only [toJson] at hvalue
    split at hvalue
    · cases hvalue
    · cases hvalue
    · next hitems =>
      obtain rfl := Except.ok.inj hvalue
      refine ⟨?_, boundedItems_ofWholeItems h.2 hitems⟩
      rw [length_ofWholeItems, length_itemsToJson hitems]
      exact h.1
  | object members unclosed =>
    simp only [toJson] at hvalue
    split at hvalue
    · cases hvalue
    · cases hvalue
    · next hmembers =>
      obtain rfl := Except.ok.inj hvalue
      exact bounded_ofWhole_object (boundedMembers_ofWholeMembers h hmembers)

theorem boundedItems_ofWholeItems {items : List Draft} {values : List Json} (h : BoundedItems limit items)
    (hvalues : itemsToJson items = .ok values) : BoundedItems limit (ofWholeItems values) := by
  cases items with
  | nil =>
    obtain rfl := Except.ok.inj hvalues
    trivial
  | cons item items =>
    rw [itemsToJson] at hvalues
    split at hvalues
    · cases hvalues
    · next value hitem =>
      obtain ⟨others, hothers, rfl⟩ := Numeral.exists_map_eq_ok hvalues
      exact ⟨bounded_ofWhole h.1 hitem, boundedItems_ofWholeItems h.2 hothers⟩

theorem boundedMembers_ofWholeMembers {members : List (Option (Except JsonFault String) × Draft)}
    {values : List (String × Json)} (h : BoundedMembers limit members) (hvalues : membersToJson members = .ok values) :
    BoundedMembers limit (ofWholeMembers values) := by
  match members with
  | [] =>
    obtain rfl := Except.ok.inj hvalues
    trivial
  | (none, _) :: _ => cases hvalues
  | (some (.error _), _) :: _ => cases hvalues
  | (some (.ok key), value) :: members =>
    rw [membersToJson] at hvalues
    split at hvalues
    · cases hvalues
    · next inner hvalue =>
      obtain ⟨others, hothers, rfl⟩ := Numeral.exists_map_eq_ok hvalues
      exact ⟨bounded_ofWhole h.1 hvalue, boundedMembers_ofWholeMembers h.2 hothers⟩

end

end Draft

/-! ## The reader -/

def Shrinks (input : JsonInput) (out : Option JsonInput) : Prop :=
  ∀ rest ∈ out, rest.byteLength < input.byteLength

theorem Shrinks.none {input : JsonInput} : Shrinks input none :=
  nofun

theorem Shrinks.mono {input inter : JsonInput} {out : Option JsonInput} (h : Shrinks inter out)
    (hle : inter.byteLength ≤ input.byteLength) : Shrinks input out :=
  fun rest hrest => (h rest hrest).trans_le hle

namespace Document

variable {limit : Nat}

theorem byteLength_dropBlanks_le (input : JsonInput) : (dropBlanks input).byteLength ≤ input.byteLength :=
  JsonInput.byteLength_dropWhile_le isBlank input

/-- Behind blanks an input that goes on has its first character to give away. -/
theorem byteLength_of_dropBlanks {c : Option Char} {input rest : JsonInput} (h : dropBlanks input = c :: rest) :
    rest.byteLength < input.byteLength := by
  have hle := byteLength_dropBlanks_le input
  have hc := JsonInput.size_pos c
  rw [h, JsonInput.byteLength_cons] at hle
  omega

theorem bounded_word {value : Draft} {letters : String} {input : JsonInput} (h : value.Bounded limit) :
    (word value letters input).1.Bounded limit ∧
      ∀ rest ∈ (word value letters input).2, rest.byteLength ≤ input.byteLength := by
  unfold word
  split
  · next hword =>
    refine ⟨h, fun rest hrest => ?_⟩
    obtain rfl := Option.some.inj hrest
    rw [readWord_eq hword, JsonInput.byteLength_append]
    omega
  · exact ⟨trivial, nofun⟩

theorem bounded_of_toNumber? {numeral : Numeral} {text : List Char} {value : JsonNumber}
    (h : numeral.toNumber? text = some value) : (Draft.number value).Bounded limit := by
  simp only [Numeral.toNumber?] at h
  split at h
  · next hnatural =>
    obtain rfl := Option.some.inj h
    simp only [Bool.and_eq_true, decide_eq_true_eq] at hnatural
    exact hnatural.2
  · split at h
    · obtain rfl := Option.some.inj h
      trivial
    · obtain ⟨_, _, rfl⟩ := Option.map_eq_some_iff.mp h
      trivial

theorem bounded_number {input : JsonInput} : (number input).1.Bounded limit ∧ Shrinks input (number input).2 := by
  unfold number
  split
  · exact ⟨trivial, .none⟩
  · next hread =>
    obtain ⟨text, rfl, -, c, others, rfl, -⟩ := Numeral.exists_front hread
    have shrinks (rest : JsonInput) : Shrinks ((c :: others).map some ++ rest) (some rest) := by
      intro _ hrest
      obtain rfl := Option.some.inj hrest
      have := JsonInput.size_pos (some c)
      rw [JsonInput.byteLength_append, List.map_cons, JsonInput.byteLength_cons]
      omega
    split
    · next hvalue => exact ⟨bounded_of_toNumber? hvalue, shrinks _⟩
    · exact ⟨trivial, shrinks _⟩

theorem bounded_string {input : JsonInput} (h : input.byteLength ≤ limit) :
    (string input).1.Bounded limit ∧ Shrinks input (string input).2 := by
  unfold string
  split
  · next hread =>
    obtain ⟨hlt, htext⟩ := SpelledText.byteLength_of_read hread
    exact ⟨(htext _ rfl).trans h, fun _ hrest => Option.some.inj hrest ▸ hlt⟩
  · next hread => exact ⟨trivial, fun _ hrest => Option.some.inj hrest ▸ (SpelledText.byteLength_of_read hread).1⟩
  · exact ⟨trivial, .none⟩

theorem bounded_nested {room : Nat} {value : Draft} (h : value.Bounded limit) : (nested room value).Bounded limit := by
  unfold nested
  split
  · exact h
  · exact h

mutual

/-- A value that is read is bounded by the input, and what follows it is shorter. -/
theorem bounded_readValue (fuel room : Nat) {input : JsonInput} (h : input.byteLength ≤ limit) :
    (readValue fuel room input).1.Bounded limit ∧ Shrinks input (readValue fuel room input).2 := by
  cases fuel with
  | zero => exact ⟨trivial, .none⟩
  | succ fuel =>
    have hblanks := byteLength_dropBlanks_le input
    rw [readValue]
    split
    · exact ⟨trivial, .none⟩
    · exact ⟨trivial, .none⟩
    · next c rest hdrop =>
      have hrest := byteLength_of_dropBlanks hdrop
      have word {value : Draft} (letters : String) (hvalue : value.Bounded limit) :
          (word value letters rest).1.Bounded limit ∧ Shrinks input (word value letters rest).2 := by
        obtain ⟨hword, hle⟩ := @bounded_word _ _ letters rest hvalue
        exact ⟨hword, fun behind hbehind => (hle behind hbehind).trans_lt hrest⟩
      split
      · obtain ⟨hvalue, hshrinks⟩ := bounded_string (hrest.le.trans h)
        exact ⟨hvalue, hshrinks.mono hrest.le⟩
      · split
        · obtain ⟨hitems, hcount, hshrinks⟩ := bounded_readItems fuel (room - 1) true (hrest.le.trans h)
          refine ⟨bounded_nested ⟨?_, hitems⟩, hshrinks.mono hrest.le⟩
          rw [if_pos rfl] at hcount
          omega
        · split
          · obtain ⟨hmembers, hshrinks⟩ := bounded_readMembers fuel (room - 1) true (hrest.le.trans h)
            exact ⟨bounded_nested hmembers, hshrinks.mono hrest.le⟩
          · split
            · exact word _ trivial
            · split
              · exact word _ trivial
              · split
                · exact word _ trivial
                · split
                  · have hshrinks := @bounded_number limit (some c :: rest)
                    rw [← hdrop] at hshrinks ⊢
                    exact ⟨hshrinks.1, hshrinks.2.mono hblanks⟩
                  · exact ⟨trivial, .none⟩

theorem bounded_readItems (fuel room : Nat) (isFirst : Bool) {input : JsonInput} (h : input.byteLength ≤ limit) :
    Draft.BoundedItems limit (readItems fuel room isFirst input).1 ∧
      2 * (readItems fuel room isFirst input).1.length ≤ input.byteLength + (if isFirst then 2 else 1) ∧
        Shrinks input (readItems fuel room isFirst input).2.2 := by
  cases fuel with
  | zero => exact ⟨trivial, by simp [readItems], .none⟩
  | succ fuel =>
    have hblanks := byteLength_dropBlanks_le input
    rw [readItems]
    split
    · exact ⟨trivial, by simp, .none⟩
    · next c rest hdrop =>
      have hrest := byteLength_of_dropBlanks hdrop
      split
      · exact ⟨trivial, by simp, fun _ hbehind => Option.some.inj hbehind ▸ hrest⟩
      · split
        · -- the first item has no comma before it
          have hle : JsonInput.byteLength (if isFirst = true then c :: rest else rest) + 2 ≤
              input.byteLength + (if isFirst = true then 2 else 1) := by
            rw [hdrop] at hblanks
            split <;> omega
          have htwo : (if isFirst = true then 2 else 1) ≤ 2 := by split <;> omega
          obtain ⟨hitem, hshrinks⟩ := bounded_readValue fuel room
            (show JsonInput.byteLength (if isFirst = true then c :: rest else rest) ≤ limit by omega)
          split
          · next item hread =>
            rw [hread] at hitem
            refine ⟨⟨hitem, trivial⟩, ?_, .none⟩
            rw [List.length_singleton]
            omega
          · next item behind hread =>
            rw [hread] at hitem hshrinks
            have hbehind := hshrinks behind rfl
            obtain ⟨hitems, hcount, hshrinks⟩ :=
              bounded_readItems fuel room false (show behind.byteLength ≤ limit by omega)
            rw [if_neg Bool.false_ne_true] at hcount
            refine ⟨⟨hitem, hitems⟩, ?_, hshrinks.mono (by omega)⟩
            rw [List.length_cons]
            omega
        · exact ⟨trivial, by simp, .none⟩

theorem bounded_readMembers (fuel room : Nat) (isFirst : Bool) {input : JsonInput} (h : input.byteLength ≤ limit) :
    Draft.BoundedMembers limit (readMembers fuel room isFirst input).1 ∧
      Shrinks input (readMembers fuel room isFirst input).2.2 := by
  cases fuel with
  | zero => exact ⟨trivial, .none⟩
  | succ fuel =>
    have hblanks := byteLength_dropBlanks_le input
    rw [readMembers]
    split
    · exact ⟨trivial, .none⟩
    · next c rest hdrop =>
      have hrest := byteLength_of_dropBlanks hdrop
      split
      · exact ⟨trivial, fun _ hbehind => Option.some.inj hbehind ▸ hrest⟩
      · split
        · have hle : JsonInput.byteLength (if isFirst = true then c :: rest else rest) ≤ input.byteLength := by
            rw [hdrop] at hblanks
            split
            · exact hblanks
            · exact hrest.le
          have hkeys := byteLength_dropBlanks_le (if isFirst = true then c :: rest else rest)
          simp only
          split
          · next inside hkey =>
            have hinside := byteLength_of_dropBlanks hkey
            split
            · exact ⟨⟨trivial, trivial⟩, .none⟩
            · next key behind hread =>
              have hbehind := (SpelledText.byteLength_of_read hread).1
              split
              · next colon hcolon =>
                have hcolon := byteLength_of_dropBlanks hcolon
                have hle : JsonInput.byteLength colon ≤ limit := by omega
                obtain ⟨hvalue, hshrinks⟩ := bounded_readValue fuel room hle
                split
                · next value hread =>
                  rw [hread] at hvalue
                  exact ⟨⟨hvalue, trivial⟩, .none⟩
                · next value others hread =>
                  rw [hread] at hvalue hshrinks
                  have hothers := hshrinks others rfl
                  obtain ⟨hmembers, hshrinks⟩ :=
                    bounded_readMembers fuel room false (show others.byteLength ≤ limit by omega)
                  exact ⟨⟨hvalue, hmembers⟩, hshrinks.mono (by omega)⟩
              · exact ⟨⟨trivial, trivial⟩, .none⟩
              · exact ⟨⟨trivial, trivial⟩, .none⟩
          · exact ⟨⟨(bounded_readValue fuel room (by omega)).1, trivial⟩, .none⟩
        · exact ⟨trivial, .none⟩

end

/-- The draft of a document is bounded by the bytes it is read from. -/
theorem bounded_ofBytes (bytes : ByteArray) : (ofBytes bytes).value.Bounded bytes.size := by
  have hvalue := (bounded_readValue (2 * (decodeUtf8 bytes).length + 2) maxDepth (byteLength_decodeUtf8_le bytes)).1
  rw [ofBytes, ofInput]
  split
  · next hread =>
    rw [hread] at hvalue
    exact hvalue
  · next hread =>
    rw [hread] at hvalue
    exact hvalue

end Document

end FieldRemap
