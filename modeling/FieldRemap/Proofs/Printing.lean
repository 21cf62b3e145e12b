/-
  FieldRemap.Proofs.Printing — compact text is read back.

  The reader takes what is printed for a value, stops right behind it, and has the value again
  (`Document.readValue_print`): the escapes of a string are those it decodes
  (`SpelledText.read_encodeName`), the digits of a number spell it and start with no needless
  zero (`Document.number_natural`), and each mark leads it on to the next item or member. The
  numbers of such a value are natural numbers of 64 bits, and its arrays and objects are not
  nested too deep (`Json.fits`).
-/

import FieldRemap.Proofs.Document
import FieldRemap.Proofs.Spelling

namespace FieldRemap

/-! ## Strings -/

namespace Spelling

variable {input rest : JsonInput}

theorem readFrom_eq (skipped : Nat) (input : JsonInput) :
    readFrom skipped input = readFrom 0 (input.drop skipped) := by
  induction input generalizing skipped with
  | nil => cases skipped <;> rfl
  | cons c input ih =>
    cases skipped with
    | zero => rfl
    | succ skipped => exact ih skipped

/-- Behind a backslash the escape is read and what follows it goes on. -/
theorem readFrom_escape {c : Char} {length : Nat} (h : escape input = .ok (c, length)) :
    readFrom 0 (some '\\' :: input) = (readFrom 0 (input.drop length)).map fun x => (some c :: x.1, x.2) := by
  rw [← readFrom_eq]
  simp [readFrom, h]

/-- The digits that a control character is written with spell its number. -/
theorem hexNumber?_control {n : Nat} (h : n < 32) :
    hexNumber? ['0', '0', hexDigit (n / 16), hexDigit (n % 16)] = some n := by
  have hall : ∀ n < 32, hexNumber? ['0', '0', hexDigit (n / 16), hexDigit (n % 16)] = some n := by decide
  exact hall n h

theorem escape_control {c : Char} (h : c.toNat < 32) :
    escape (some 'u' :: some '0' :: some '0' :: some (hexDigit (c.toNat / 16)) ::
      some (hexDigit (c.toNat % 16)) :: input) = .ok (c, 5) := by
  have hlow : isLowSurrogate c.toNat = false := by simp [isLowSurrogate]; omega
  have hhigh : isHighSurrogate c.toNat = false := by simp [isHighSurrogate]; omega
  simp [escape, unit_eq (hexNumber?_control h), Except.bind, hlow, hhigh]

/-- What is written for a character is read as that character. -/
theorem readFrom_encodeChar (c : Char) (input : JsonInput) :
    readFrom 0 ((encodeChar c).map some ++ input) = (readFrom 0 input).map fun x => (some c :: x.1, x.2) := by
  have h := escaped_encodeChar c
  generalize encodeChar c = written at h
  cases h with
  | plain hq hb h => simp [readFrom, hq, hb, Nat.not_lt.mpr h]
  | mark h =>
    have hescape : escape (some c :: input) = .ok (c, 1) := by rcases h with rfl | rfl <;> rfl
    exact readFrom_escape hescape
  | letter k h =>
    have hletters : ∀ x ∈ controlLetters, x.2 ≠ 'u' ∧ simpleEscape? x.2 = some x.1 := by decide
    obtain ⟨hu, hk⟩ := hletters _ h
    have hescape : escape (some k :: input) = .ok (c, 1) := by simp [escape, hu, hk]
    exact readFrom_escape hescape
  | number h => exact readFrom_escape (escape_control h)

theorem readFrom_encodeName (name : List Char) (rest : JsonInput) :
    readFrom 0 ((encodeName name).map some ++ some '"' :: rest) = .ok (name.map some, rest) := by
  induction name with
  | nil => simp [encodeName, readFrom]
  | cons c name ih =>
    have hcons : encodeName (c :: name) = encodeChar c ++ encodeName name := rfl
    rw [hcons, List.map_append, List.append_assoc, readFrom_encodeChar, ih]
    rfl

theorem whole?_map (text : List Char) : whole? (text.map some) = some text := by
  induction text with
  | nil => rfl
  | cons c text ih =>
    rw [whole?] at ih
    simp [whole?, List.mapM_cons, ih]

end Spelling

/-- A text is read from what is written for it. -/
theorem SpelledText.read_encodeName (text : String) (rest : JsonInput) :
    read ((encodeName text.toList).map some ++ some '"' :: rest) = .closed (.ok text) rest := by
  rw [read, Spelling.readFrom_encodeName]
  simp only [Spelling.whole?_map, String.ofList_toList]

/-! ## Numbers -/

/-- The digits of a number do not start with a zero, but for zero itself. -/
theorem head?_toDigits {n : Nat} (h : n ≠ 0) : (Nat.toDigits 10 n).head? ≠ some '0' := by
  induction n using Nat.strong_induction_on with
  | _ n ih =>
    by_cases hlt : n < 10
    · have hdigits : ∀ n < 10, n ≠ 0 → (Nat.toDigits 10 n).head? ≠ some '0' := by decide
      exact hdigits n hlt h
    · rw [Nat.toDigits_of_base_le (by decide) (by omega), List.head?_append_of_ne_nil _ Nat.toDigits_ne_nil]
      exact ih (n / 10) (by omega) (by omega)

theorem exists_toDigits_cons (n : Nat) : ∃ d ds, Nat.toDigits 10 n = d :: ds ∧ d.isDigit = true := by
  obtain ⟨d, ds, heq⟩ := List.exists_cons_of_ne_nil (Nat.toDigits_ne_nil (n := n) (b := 10))
  refine ⟨d, ds, heq, Nat.isDigit_of_mem_toDigits (by decide) (by decide) (show d ∈ Nat.toDigits 10 n from ?_)⟩
  rw [heq]
  exact List.mem_cons_self

namespace Numeral

variable {rest : JsonInput}

theorem read_toDigits (n : Nat) (hrest : Ends rest) :
    read ((Nat.toDigits 10 n).map some ++ rest) = .ok (⟨false, Nat.toDigits 10 n, [], none, true⟩, rest) := by
  have hdigits : ∀ c ∈ Nat.toDigits 10 n, c.isDigit = true :=
    fun c hc => Nat.isDigit_of_mem_toDigits (by decide) (by decide) hc
  have htake : takeDigits ((Nat.toDigits 10 n).map some ++ rest) = (Nat.toDigits 10 n, rest) :=
    takeDigits_append hdigits fun c others h => (hrest c others h).1
  have hbehind : readBehind false (Nat.toDigits 10 n) rest =
      .ok (⟨false, Nat.toDigits 10 n, [], none, true⟩, rest) := by
    unfold readBehind
    split
    · exact absurd rfl (hrest _ _ rfl).2.1
    · rw [show readExponent rest = .ok (none, rest) from front_nil.read rest hrest]
      rfl
  rw [read_of_ne_minus, readWhole, htake]
  · simp only
    split
    · next h => exact absurd h Nat.toDigits_ne_nil
    · next d ds h =>
      by_cases hn : n = 0
      · rw [hn, Nat.toDigits_zero] at h
        cases h
      · exact absurd (by rw [h]; rfl) (head?_toDigits hn)
    · exact hbehind
  · intro others h
    obtain ⟨d, ds, heq, hd⟩ := exists_toDigits_cons n
    rw [heq] at h
    obtain rfl : d = '-' := Option.some.inj (List.cons.inj h).1
    cases hd

end Numeral

theorem Document.not_isBlank_of_isDigit {c : Char} (h : c.isDigit = true) : isBlank (some c) = false := by
  have hne {d : Char} (hd : d.isDigit = false) : c ≠ d := Numeral.ne_of_isDigit h hd
  simp [isBlank, hne (d := ' ') rfl, hne (d := '\n') rfl, hne (d := '\t') rfl, hne (d := '\r') rfl]

/-- A natural number of 64 bits is read from its digits. -/
theorem Document.number_natural {n : Nat} {rest : JsonInput} (h : n < wordLimit) (hrest : Numeral.Ends rest) :
    number ((Nat.toDigits 10 n).map some ++ rest) = (.number (.natural n), some rest) := by
  rw [number, Numeral.read_toDigits n hrest]
  simp [Numeral.toNumber?, Nat.ofDigitChars_ten_toDigits, h]

/-! ## Values -/

namespace Json

mutual

/-- Whether the numbers of a value are natural numbers of 64 bits, and its arrays and objects nested no deeper than
    `room`. -/
def fits (room : Nat) : Json → Bool
  | .null | .bool _ | .text _ => true
  | .number (.natural n) => n < wordLimit
  | .number _ => false
  | .array items => room != 0 && fitsItems (room - 1) items
  | .object members => room != 0 && fitsMembers (room - 1) members

def fitsItems (room : Nat) : List Json → Bool
  | [] => true
  | item :: rest => fits room item && fitsItems room rest

def fitsMembers (room : Nat) : List (String × Json) → Bool
  | [] => true
  | (_, value) :: rest => fits room value && fitsMembers room rest

end

def itemsText (isFirst : Bool) : List Json → List Char
  | [] => [']']
  | items => if isFirst then printItems items else ',' :: printItems items

def membersText (isFirst : Bool) : List (String × Json) → List Char
  | [] => ['}']
  | members => if isFirst then printMembers members else ',' :: printMembers members

theorem print_array (items : List Json) : (Json.array items).print = '[' :: itemsText true items := by
  cases items <;> rfl

theorem print_object (members : List (String × Json)) :
    (Json.object members).print = '{' :: membersText true members := by
  cases members <;> rfl

theorem printItems_cons (item : Json) (rest : List Json) :
    printItems (item :: rest) = item.print ++ itemsText false rest := by
  cases rest <;> rfl

theorem printMembers_cons (key : String) (value : Json) (rest : List (String × Json)) :
    printMembers ((key, value) :: rest) = printText key ++ ':' :: (value.print ++ membersText false rest) := by
  cases rest with
  | nil => simp [printMembers, membersText]
  | cons => simp [printMembers, membersText]

/-- What is printed starts with no blank and with nothing that closes an array. -/
theorem exists_print_cons {value : Json} {room : Nat} (h : value.fits room = true) :
    ∃ c others, value.print = c :: others ∧ Document.isBlank (some c) = false ∧ c ≠ ']' := by
  cases value with
  | null => exact ⟨'n', _, rfl, rfl, by decide⟩
  | bool value => cases value <;> exact ⟨_, _, rfl, rfl, by decide⟩
  | text => exact ⟨'"', _, rfl, rfl, by decide⟩
  | array => exact ⟨'[', _, rfl, rfl, by decide⟩
  | object => exact ⟨'{', _, rfl, rfl, by decide⟩
  | number number =>
    cases number with
    | negative | numeral => cases h
    | natural n =>
      obtain ⟨d, ds, heq, hd⟩ := exists_toDigits_cons n
      exact ⟨d, ds, heq, Document.not_isBlank_of_isDigit hd, Numeral.ne_of_isDigit hd rfl⟩

theorem length_print_pos {value : Json} {room : Nat} (h : value.fits room = true) : 0 < value.print.length := by
  obtain ⟨c, others, hprint, -, -⟩ := exists_print_cons h
  rw [hprint]
  exact Nat.succ_pos _

/-- The text of an item and that of the items behind it are parts of the text of all. -/
theorem length_itemsText_cons (isFirst : Bool) {item : Json} (items : List Json) {room : Nat}
    (h : item.fits room = true) : item.print.length < (itemsText isFirst (item :: items)).length ∧
      (itemsText false items).length < (itemsText isFirst (item :: items)).length := by
  have hitem := length_print_pos h
  have hitems : 0 < (itemsText false items).length := by cases items <;> exact Nat.succ_pos _
  have htext : item.print.length + (itemsText false items).length ≤ (itemsText isFirst (item :: items)).length := by
    cases isFirst <;> simp [itemsText, printItems_cons]
  omega

/-- The text of a value and that of the members behind it are parts of the text of all. -/
theorem length_membersText_cons (isFirst : Bool) (key : String) (value : Json) (members : List (String × Json)) :
    value.print.length < (membersText isFirst ((key, value) :: members)).length ∧
      (membersText false members).length < (membersText isFirst ((key, value) :: members)).length := by
  have htext : value.print.length + (membersText false members).length <
      (membersText isFirst ((key, value) :: members)).length := by
    cases isFirst <;> simp [membersText, printMembers_cons] <;> omega
  omega

end Json

namespace Document

open Json

variable {rest : JsonInput}

theorem dropBlanks_of_not {c : Char} (h : isBlank (some c) = false) :
    dropBlanks (some c :: rest) = some c :: rest :=
  List.dropWhile_cons_of_neg (by simp [h])

/-- A bracket, a brace or a comma ends a number. -/
theorem ends_of_mark {c : Char} (h : c ∈ [',', ']', '}']) : Numeral.Ends (some c :: rest) := by
  have hmarks : ∀ c ∈ [',', ']', '}'], c.isDigit = false ∧ c ≠ '.' ∧ c ≠ 'e' ∧ c ≠ 'E' :=
    forall_mem_of_all (by decide)
  rintro d others heq
  obtain rfl := Option.some.inj (List.cons.inj heq).1
  exact hmarks _ h

theorem ends_itemsText (items : List Json) (rest : JsonInput) :
    Numeral.Ends ((itemsText false items).map some ++ rest) := by
  cases items with
  | nil => exact ends_of_mark (by decide)
  | cons => exact ends_of_mark (by decide)

theorem ends_membersText (members : List (String × Json)) (rest : JsonInput) :
    Numeral.Ends ((membersText false members).map some ++ rest) := by
  cases members with
  | nil => exact ends_of_mark (by decide)
  | cons => exact ends_of_mark (by decide)

/-- An item is read where it stands, first or behind a comma. -/
theorem readItems_cons {item : Json} {items : List Json} {fuel room : Nat} (isFirst : Bool)
    (hfits : item.fits room = true)
    (hitem : readValue fuel room (item.print.map some ++ ((itemsText false items).map some ++ rest)) =
      (.ofJson item, some ((itemsText false items).map some ++ rest)))
    (hitems : readItems fuel room false ((itemsText false items).map some ++ rest) =
      (Draft.ofItems items, none, some rest)) :
    readItems (fuel + 1) room isFirst ((itemsText isFirst (item :: items)).map some ++ rest) =
      (Draft.ofItems (item :: items), none, some rest) := by
  cases isFirst with
  | false =>
    have htext : (itemsText false (item :: items)).map some ++ rest =
        some ',' :: (item.print.map some ++ ((itemsText false items).map some ++ rest)) := by
      simp [itemsText, printItems_cons]
    rw [htext, readItems, dropBlanks_of_not (by decide)]
    simp [hitem, hitems, Draft.ofItems]
  | true =>
    have htext : (itemsText true (item :: items)).map some ++ rest =
        item.print.map some ++ ((itemsText false items).map some ++ rest) := by
      simp [itemsText, printItems_cons]
    obtain ⟨c, others, hprint, hblank, hbracket⟩ := exists_print_cons hfits
    rw [htext]
    rw [hprint, List.map_cons, List.cons_append] at hitem ⊢
    rw [readItems, dropBlanks_of_not hblank]
    simp [hbracket, hitem, hitems, Draft.ofItems]

/-- A member is read where it stands, first or behind a comma. -/
theorem readMembers_cons {key : String} {value : Json} {members : List (String × Json)} {fuel room : Nat}
    (isFirst : Bool)
    (hvalue : readValue fuel room (value.print.map some ++ ((membersText false members).map some ++ rest)) =
      (.ofJson value, some ((membersText false members).map some ++ rest)))
    (hmembers : readMembers fuel room false ((membersText false members).map some ++ rest) =
      (Draft.ofMembers members, none, some rest)) :
    readMembers (fuel + 1) room isFirst ((membersText isFirst ((key, value) :: members)).map some ++ rest) =
      (Draft.ofMembers ((key, value) :: members), none, some rest) := by
  -- the key stands between quotes, and a colon behind it
  have hkey := SpelledText.read_encodeName key
    (some ':' :: (value.print.map some ++ ((membersText false members).map some ++ rest)))
  have hquote : dropBlanks (some '"' :: ((encodeName key.toList).map some ++ some '"' :: some ':' ::
      (value.print.map some ++ ((membersText false members).map some ++ rest)))) = some '"' ::
        ((encodeName key.toList).map some ++ some '"' :: some ':' ::
          (value.print.map some ++ ((membersText false members).map some ++ rest))) :=
    dropBlanks_of_not (by decide)
  have hcolon : dropBlanks (some ':' :: (value.print.map some ++ ((membersText false members).map some ++ rest))) =
      some ':' :: (value.print.map some ++ ((membersText false members).map some ++ rest)) :=
    dropBlanks_of_not (by decide)
  cases isFirst with
  | false =>
    have htext : (membersText false ((key, value) :: members)).map some ++ rest = some ',' :: some '"' ::
        ((encodeName key.toList).map some ++ some '"' :: some ':' ::
          (value.print.map some ++ ((membersText false members).map some ++ rest))) := by
      simp [membersText, printMembers_cons, printText]
    rw [htext, readMembers, dropBlanks_of_not (by decide)]
    simp [hquote, hkey, hcolon, hvalue, hmembers, Draft.ofMembers]
  | true =>
    have htext : (membersText true ((key, value) :: members)).map some ++ rest = some '"' ::
        ((encodeName key.toList).map some ++ some '"' :: some ':' ::
          (value.print.map some ++ ((membersText false members).map some ++ rest))) := by
      simp [membersText, printMembers_cons, printText]
    rw [htext, readMembers, hquote]
    simp [hquote, hkey, hcolon, hvalue, hmembers, Draft.ofMembers]

/-- A word is read behind its first letter. -/
theorem word_append (value : Draft) (letters : String) :
    word value letters (letters.toList.map some ++ rest) = (value, some rest) := by
  rw [word, readWord_append]

/-- A natural number of 64 bits is read where a value stands. -/
theorem readValue_natural {n : Nat} (fuel room : Nat) (h : n < wordLimit) (hrest : Numeral.Ends rest) :
    readValue (fuel + 1) room ((Nat.toDigits 10 n).map some ++ rest) = (.number (.natural n), some rest) := by
  have hread := number_natural h hrest
  obtain ⟨c, others, heq, hc⟩ := exists_toDigits_cons n
  have hne {d : Char} (hd : d.isDigit = false) : c ≠ d := Numeral.ne_of_isDigit hc hd
  rw [heq, List.map_cons, List.cons_append] at hread ⊢
  rw [readValue, dropBlanks_of_not (not_isBlank_of_isDigit hc)]
  simp [hne (d := '"') rfl, hne (d := '[') rfl, hne (d := '{') rfl, hne (d := 'n') rfl, hne (d := 't') rfl,
    hne (d := 'f') rfl, hc, hread]

theorem nested_of_ne {room : Nat} (h : room ≠ 0) (value : Draft) : nested room value = value :=
  if_neg h

/-- An array is read when its items are. -/
theorem readValue_array {items : List Json} {fuel room : Nat} (hroom : room ≠ 0)
    (h : readItems fuel (room - 1) true ((itemsText true items).map some ++ rest) =
      (Draft.ofItems items, none, some rest)) :
    readValue (fuel + 1) room ((Json.array items).print.map some ++ rest) = (.ofJson (.array items), some rest) := by
  rw [print_array, List.map_cons, List.cons_append, readValue, dropBlanks_of_not (by decide)]
  simp [h, nested_of_ne hroom, Draft.ofJson]

/-- An object is read when its members are. -/
theorem readValue_object {members : List (String × Json)} {fuel room : Nat} (hroom : room ≠ 0)
    (h : readMembers fuel (room - 1) true ((membersText true members).map some ++ rest) =
      (Draft.ofMembers members, none, some rest)) :
    readValue (fuel + 1) room ((Json.object members).print.map some ++ rest) =
      (.ofJson (.object members), some rest) := by
  rw [print_object, List.map_cons, List.cons_append, readValue, dropBlanks_of_not (by decide)]
  simp [h, nested_of_ne hroom, Draft.ofJson]

mutual

/-- What is printed for a value is read as that value, up to where it ends. -/
theorem readValue_print (value : Json) (fuel room : Nat) (rest : JsonInput) (hfuel : value.print.length ≤ fuel)
    (hfits : value.fits room = true) (hrest : Numeral.Ends rest) :
    readValue fuel room (value.print.map some ++ rest) = (.ofJson value, some rest) := by
  obtain ⟨c, others, hprint, -, -⟩ := exists_print_cons hfits
  obtain ⟨fuel, rfl⟩ : ∃ f, fuel = f + 1 := ⟨fuel - 1, by rw [hprint, List.length_cons] at hfuel; omega⟩
  cases value with
  | null => exact word_append .null "ull"
  | bool value =>
    cases value with
    | true => exact word_append (.bool true) "rue"
    | false => exact word_append (.bool false) "alse"
  | text value =>
    have htext : (Json.text value).print.map some ++ rest =
        some '"' :: ((encodeName value.toList).map some ++ some '"' :: rest) := by
      simp [Json.print, printText]
    rw [htext, readValue, dropBlanks_of_not (by decide)]
    simp [string, SpelledText.read_encodeName, Draft.ofJson]
  | number number =>
    cases number with
    | natural n => exact readValue_natural fuel room (by simpa [Json.fits] using hfits) hrest
    | negative | numeral => cases hfits
  | array items =>
    obtain ⟨hroom, hitems⟩ : room ≠ 0 ∧ fitsItems (room - 1) items = true := by simpa [Json.fits] using hfits
    rw [print_array, List.length_cons] at hfuel
    exact readValue_array hroom (readItems_print items true fuel (room - 1) rest (by omega) hitems)
  | object members =>
    obtain ⟨hroom, hmembers⟩ : room ≠ 0 ∧ fitsMembers (room - 1) members = true := by simpa [Json.fits] using hfits
    rw [print_object, List.length_cons] at hfuel
    exact readValue_object hroom (readMembers_print members true fuel (room - 1) rest (by omega) hmembers)

theorem readItems_print (items : List Json) (isFirst : Bool) (fuel room : Nat) (rest : JsonInput)
    (hfuel : (itemsText isFirst items).length ≤ fuel) (hfits : fitsItems room items = true) :
    readItems fuel room isFirst ((itemsText isFirst items).map some ++ rest) =
      (Draft.ofItems items, none, some rest) := by
  cases items with
  | nil =>
    obtain ⟨fuel, rfl⟩ : ∃ f, fuel = f + 1 := ⟨fuel - 1, by simp [itemsText] at hfuel; omega⟩
    have htext : (itemsText isFirst []).map some ++ rest = some ']' :: rest := rfl
    rw [htext, readItems, dropBlanks_of_not (by decide)]
    simp [Draft.ofItems]
  | cons item items =>
    obtain ⟨hitem, hitems⟩ : item.fits room = true ∧ fitsItems room items = true := by
      simpa [fitsItems] using hfits
    obtain ⟨hlength, hbehind⟩ := length_itemsText_cons isFirst items hitem
    obtain ⟨fuel, rfl⟩ : ∃ f, fuel = f + 1 := ⟨fuel - 1, by omega⟩
    exact readItems_cons isFirst hitem
      (readValue_print item fuel room _ (by omega) hitem (ends_itemsText items rest))
      (readItems_print items false fuel room rest (by omega) hitems)

theorem readMembers_print (members : List (String × Json)) (isFirst : Bool) (fuel room : Nat) (rest : JsonInput)
    (hfuel : (membersText isFirst members).length ≤ fuel) (hfits : fitsMembers room members = true) :
    readMembers fuel room isFirst ((membersText isFirst members).map some ++ rest) =
      (Draft.ofMembers members, none, some rest) := by
  cases members with
  | nil =>
    obtain ⟨fuel, rfl⟩ : ∃ f, fuel = f + 1 := ⟨fuel - 1, by simp [membersText] at hfuel; omega⟩
    have htext : (membersText isFirst []).map some ++ rest = some '}' :: rest := rfl
    rw [htext, readMembers, dropBlanks_of_not (by decide)]
    simp [Draft.ofMembers]
  | cons member members =>
    obtain ⟨key, value⟩ := member
    obtain ⟨hvalue, hmembers⟩ : value.fits room = true ∧ fitsMembers room members = true := by
      simpa [fitsMembers] using hfits
    obtain ⟨hlength, hbehind⟩ := length_membersText_cons isFirst key value members
    obtain ⟨fuel, rfl⟩ : ∃ f, fuel = f + 1 := ⟨fuel - 1, by omega⟩
    exact readMembers_cons isFirst
      (readValue_print value fuel room _ (by omega) hvalue (ends_membersText members rest))
      (readMembers_print members false fuel room rest (by omega) hmembers)

end

/-- The bytes of a text spell its characters. -/
theorem decodeUtf8_toUTF8 (text : String) : decodeUtf8 text.toUTF8 = text.toList.map some := by
  have htext : String.fromUTF8? text.toUTF8 = some text := dif_pos text.isValidUTF8
  rw [decodeUtf8, htext]

/-- The bytes of a value's compact text are read as the value, and nothing follows it. -/
theorem ofBytes_compact {value : Json} (h : value.fits maxDepth = true) :
    ofBytes value.compact.toUTF8 = ⟨.ofJson value, false⟩ := by
  have hread : readValue (2 * (value.print.map some).length + 2) maxDepth (value.print.map some) =
      (.ofJson value, some []) := by
    have hprint := readValue_print value (2 * (value.print.map some).length + 2) maxDepth []
      (by rw [List.length_map]; omega) h Numeral.ends_nil
    rwa [List.append_nil] at hprint
  have hinput : decodeUtf8 value.compact.toUTF8 = value.print.map some := by
    rw [decodeUtf8_toUTF8, Json.compact, String.toList_ofList]
  rw [ofBytes, hinput, ofInput, hread]
  rfl

end Document

end FieldRemap
