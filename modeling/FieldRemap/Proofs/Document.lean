/-
  FieldRemap.Proofs.Document — what is derived is read without a fault.

  Before the first token of what is spelled the reader is led to that token, whatever blanks
  stand there (`Spelled.dropBlanks_cons`), and a derivation leads it on from token to token
  (`readable_of_derives`). With `FieldRemap.Proofs.Derivation` the reader and the grammar take
  the same texts for documents (`isRead_iff`).
-/

import FieldRemap.Proofs.Derivation

namespace FieldRemap

/-! ## Reading what is spelled -/

def Spelled (tokens : List JsonToken) (input : JsonInput) : Prop :=
  ∃ pieces : List JsonPiece, input = (JsonPiece.write pieces).map some ∧
    (∀ piece ∈ pieces, piece.isFormed = true ∧ piece.comment? = none) ∧ pieces.filterMap (·.token?) = tokens

/-- A token starts with a character that is no blank, and closes nothing where it is not the mark for that. -/
theorem JsonToken.exists_head {t : JsonToken} (h : t.isFormed = true) :
    ∃ c others, t.text = c :: others ∧ Document.isBlank (some c) = false ∧
      (t ≠ .mark ']' → c ≠ ']') ∧ (t ≠ .mark '}' → c ≠ '}') := by
  cases t with
  | mark c =>
    have hmarks : ∀ c ∈ ['[', ']', '{', '}', ':', ','], Document.isBlank (some c) = false :=
      forall_mem_of_all (by decide)
    refine ⟨c, [], rfl, hmarks c (by simpa [isFormed] using h), ?_, ?_⟩ <;>
    · intro hne heq
      exact hne (congrArg JsonToken.mark heq)
  | word letters =>
    have hwords : ∀ word ∈ ["null".toList, "true".toList, "false".toList],
        word.head?.any (fun c => !Document.isBlank (some c) && c != ']' && c != '}') = true := by decide
    have hletters := hwords letters (by simpa only [isFormed, decide_eq_true_eq] using h)
    obtain ⟨c, hc, hplain⟩ := (Option.any_eq_true _ _).mp hletters
    obtain ⟨others, rfl⟩ := List.head?_eq_some_iff.mp hc
    simp only [Bool.and_eq_true, Bool.not_eq_true', bne_iff_ne, ne_eq] at hplain
    obtain ⟨⟨hblank, hbracket⟩, hbrace⟩ := hplain
    exact ⟨c, others, rfl, hblank, fun _ => hbracket, fun _ => hbrace⟩
  | number text =>
    obtain ⟨_, _, c, others, rfl, hc⟩ := exists_front h
    have hne {d : Char} := @Numeral.ne_of_start c d hc
    have hblank : Document.isBlank (some c) = false := by
      simp [Document.isBlank, hne (d := ' ') (by decide) rfl, hne (d := '\n') (by decide) rfl,
        hne (d := '\t') (by decide) rfl, hne (d := '\r') (by decide) rfl]
    exact ⟨c, others, rfl, hblank, fun _ => hne (by decide) rfl, fun _ => hne (by decide) rfl⟩
  | string content => exact ⟨'"', content ++ ['"'], rfl, by decide, fun _ => by decide, fun _ => by decide⟩

namespace Spelled

variable {tokens : List JsonToken} {t : JsonToken} {input : JsonInput}

theorem dropBlanks_nil (h : Spelled [] input) : Document.dropBlanks input = [] := by
  obtain ⟨pieces, rfl, hall, htokens⟩ := h
  induction pieces with
  | nil => rfl
  | cons piece pieces ih =>
    obtain ⟨⟨hformed, hplain⟩, hpieces⟩ := List.forall_mem_cons.mp hall
    cases piece with
    | blank c =>
      have hblank : Document.isBlank (some c) = true := hformed
      exact (List.dropWhile_cons_of_pos hblank).trans (ih hpieces htokens)
    | token t => cases htokens
    | line | block => cases hplain

/-- Behind blanks stands the first token. -/
theorem dropBlanks_cons (h : Spelled (t :: tokens) input) : t.isFormed = true ∧
    ∃ rest, Document.dropBlanks input = t.text.map some ++ rest ∧ Spelled tokens rest ∧ rest.length < input.length := by
  obtain ⟨pieces, rfl, hall, hspelled⟩ := h
  induction pieces with
  | nil => cases hspelled
  | cons piece pieces ih =>
    obtain ⟨⟨hformed, hplain⟩, hpieces⟩ := List.forall_mem_cons.mp hall
    rw [JsonPiece.write_cons, List.map_append]
    cases piece with
    | blank c =>
      obtain ⟨ht, rest, hrest, hbehind, hlt⟩ := ih hpieces hspelled
      have hblank : Document.isBlank (some c) = true := hformed
      refine ⟨ht, rest, (List.dropWhile_cons_of_pos hblank).trans hrest, hbehind, ?_⟩
      rw [List.length_append]
      omega
    | token s =>
      obtain ⟨rfl, htokens⟩ := List.cons.inj hspelled
      obtain ⟨c, others, htext, hblank, _⟩ := JsonToken.exists_head hformed
      refine ⟨hformed, (JsonPiece.write pieces).map some, ?_, ⟨pieces, rfl, hpieces, htokens⟩, ?_⟩
      · rw [JsonPiece.text, htext]
        exact List.dropWhile_cons_of_neg (by simp [hblank])
      · rw [JsonPiece.text, htext, List.length_append]
        exact Nat.lt_add_of_pos_left (Nat.succ_pos _)
    | line | block => cases hplain

theorem cons (ht : t.isFormed = true) (h : Spelled tokens input) :
    Spelled (t :: tokens) (t.text.map some ++ input) := by
  obtain ⟨pieces, rfl, hpieces, rfl⟩ := h
  exact ⟨.token t :: pieces, by rw [JsonPiece.write_cons, List.map_append]; rfl,
    List.forall_mem_cons.mpr ⟨⟨ht, rfl⟩, hpieces⟩, rfl⟩

/-- What goes on with a mark, or ends, ends a number. -/
theorem ends (h : Spelled tokens input) (hmark : ∀ t ∈ tokens.head?, ∃ c, t = .mark c) : Numeral.Ends input := by
  obtain ⟨pieces, rfl, hall, htokens⟩ := h
  cases pieces with
  | nil => exact Numeral.ends_nil
  | cons piece pieces =>
    obtain ⟨⟨hformed, hplain⟩, _⟩ := List.forall_mem_cons.mp hall
    have hends : ∀ c ∈ [' ', '\n', '\t', '\r', '[', ']', '{', '}', ':', ','],
        c.isDigit = false ∧ c ≠ '.' ∧ c ≠ 'e' ∧ c ≠ 'E' := forall_mem_of_all (by decide)
    intro d rest heq
    cases piece with
    | blank c =>
      obtain rfl := Option.some.inj (List.cons.inj heq).1
      refine hends _ ?_
      simp only [JsonPiece.isFormed, Document.isBlank, Bool.or_eq_true, beq_iff_eq, Option.some.injEq] at hformed
      simp only [List.mem_cons]
      grind
    | token t =>
      obtain ⟨c, rfl⟩ := hmark t (by rw [← htokens]; rfl)
      obtain rfl := Option.some.inj (List.cons.inj heq).1
      refine hends _ ?_
      simp only [JsonPiece.isFormed, JsonToken.isFormed, decide_eq_true_eq] at hformed
      exact List.mem_append_right [' ', '\n', '\t', '\r'] hformed
    | line | block => cases hplain

end Spelled

namespace Document

inductive Gets (input : JsonInput) (tokens : List JsonToken) (fault : Option JsonFault) : Option JsonInput → Prop
  | intro {rest : JsonInput} :
      fault = none → Spelled tokens rest → rest.length < input.length → Gets input tokens fault (some rest)

variable {input : JsonInput} {tokens others rest : List JsonToken}

theorem readWord_append (word : List Char) (input : JsonInput) :
    readWord word (word.map some ++ input) = .ok input := by
  induction word with
  | nil => rfl
  | cons letter word ih => simpa [readWord] using ih

theorem gets_readItems_close {fuel room : Nat} {isFirst : Bool} (h : Spelled (.mark ']' :: rest) input)
    (hfuel : fuel ≠ 0) :
    Gets input rest
      (Draft.passedItemsFault? (readItems fuel room isFirst input).2.1 (readItems fuel room isFirst input).1)
      (readItems fuel room isFirst input).2.2 := by
  obtain ⟨fuel, rfl⟩ := Nat.exists_eq_succ_of_ne_zero hfuel
  obtain ⟨_, behind, hdrop, hspelled, hlt⟩ := h.dropBlanks_cons
  have hdrop : dropBlanks input = some ']' :: behind := hdrop
  simp only [readItems, hdrop, if_true]
  exact .intro rfl hspelled hlt

theorem gets_readMembers_close {fuel room : Nat} {isFirst : Bool} (h : Spelled (.mark '}' :: rest) input)
    (hfuel : fuel ≠ 0) :
    Gets input rest
      (Draft.passedMembersFault? (readMembers fuel room isFirst input).2.1 (readMembers fuel room isFirst input).1)
      (readMembers fuel room isFirst input).2.2 := by
  obtain ⟨fuel, rfl⟩ := Nat.exists_eq_succ_of_ne_zero hfuel
  obtain ⟨_, behind, hdrop, hspelled, hlt⟩ := h.dropBlanks_cons
  have hdrop : dropBlanks input = some '}' :: behind := hdrop
  simp only [readMembers, hdrop, if_true]
  exact .intro rfl hspelled hlt

/-- Behind an opening mark stands the first item or member, behind a comma any other. -/
theorem exists_separated {isFirst : Bool} {t : JsonToken}
    (h : Spelled (if isFirst then t :: tokens else .mark ',' :: t :: tokens) input) :
    ∃ c behind, dropBlanks input = c :: behind ∧ (t ≠ .mark ']' → c ≠ some ']') ∧ (t ≠ .mark '}' → c ≠ some '}') ∧
      (isFirst || c = some ',') = true ∧ Spelled (t :: tokens) (if isFirst then c :: behind else behind) ∧
        (if isFirst then c :: behind else behind).length ≤ input.length := by
  cases isFirst with
  | true =>
    obtain ⟨ht, rest, hdrop, hspelled, _⟩ := h.dropBlanks_cons
    have hcons := hspelled.cons ht
    have hlength : (dropBlanks input).length ≤ input.length := (List.dropWhile_suffix _).length_le
    obtain ⟨c, others, htext, _, hbracket, hbrace⟩ := JsonToken.exists_head ht
    rw [htext, List.map_cons, List.cons_append] at hdrop hcons
    rw [hdrop] at hlength
    exact ⟨some c, _, hdrop, fun hne heq => hbracket hne (Option.some.inj heq),
      fun hne heq => hbrace hne (Option.some.inj heq), rfl, hcons, hlength⟩
  | false =>
    obtain ⟨_, rest, hdrop, hspelled, hlt⟩ := h.dropBlanks_cons
    exact ⟨some ',', rest, hdrop, fun _ => by decide, fun _ => by decide, rfl, hspelled, Nat.le_of_lt hlt⟩

theorem Gets.behind {inter : JsonInput} {fault : Option JsonFault} {out : Option JsonInput}
    (hlength : inter.length ≤ input.length) (h : Gets inter tokens fault out) : Gets input tokens fault out := by
  obtain ⟨hfault, hspelled, hlt⟩ := h
  exact .intro hfault hspelled (Nat.lt_of_lt_of_le hlt hlength)

/-- What the reader makes of such a part of a document. A number needs to be told from what follows it. -/
def Readable (part : JsonPart) (tokens rest : List JsonToken) : Prop :=
  match part with
  | .value => (∀ t ∈ rest.head?, ∃ c, t = .mark c) → ∀ fuel room input, Spelled tokens input →
      2 * input.length + 2 ≤ fuel →
        Gets input rest (readValue fuel room input).1.passedFault? (readValue fuel room input).2
  | .items => ∀ behind, rest = .mark ']' :: behind → ∀ isFirst fuel room input,
      Spelled (if isFirst then tokens else .mark ',' :: tokens) input → 2 * input.length + 3 ≤ fuel →
        Gets input behind
          (Draft.passedItemsFault? (readItems fuel room isFirst input).2.1 (readItems fuel room isFirst input).1)
          (readItems fuel room isFirst input).2.2
  | .members => ∀ behind, rest = .mark '}' :: behind → ∀ isFirst fuel room input,
      Spelled (if isFirst then tokens else .mark ',' :: tokens) input → 2 * input.length + 3 ≤ fuel →
        Gets input behind
          (Draft.passedMembersFault? (readMembers fuel room isFirst input).2.1
            (readMembers fuel room isFirst input).1)
          (readMembers fuel room isFirst input).2.2

theorem readable_word {letters : List Char} : Readable .value (.word letters :: rest) rest := by
  intro _ fuel room input h hfuel
  obtain ⟨fuel, rfl⟩ : ∃ f, fuel = f + 1 := ⟨fuel - 1, by omega⟩
  obtain ⟨hformed, behind, hdrop, hspelled, hlt⟩ := h.dropBlanks_cons
  have gets {value : Draft} {word : String} (hvalue : value.passedFault? = none)
      (hread : readValue (fuel + 1) room input = Document.word value word (word.toList.map some ++ behind)) :
      Gets input rest (readValue (fuel + 1) room input).1.passedFault? (readValue (fuel + 1) room input).2 := by
    rw [hread, Document.word, readWord_append]
    exact .intro hvalue hspelled hlt
  simp only [JsonToken.isFormed, decide_eq_true_eq, List.mem_cons, List.not_mem_nil, or_false] at hformed
  rcases hformed with rfl | rfl | rfl
  · have hdrop : dropBlanks input = some 'n' :: ("ull".toList.map some ++ behind) := hdrop
    exact @gets .null "ull" (by simp [Draft.passedFault?]) (by simp [readValue, hdrop])
  · have hdrop : dropBlanks input = some 't' :: ("rue".toList.map some ++ behind) := hdrop
    exact @gets (.bool true) "rue" (by simp [Draft.passedFault?]) (by simp [readValue, hdrop])
  · have hdrop : dropBlanks input = some 'f' :: ("alse".toList.map some ++ behind) := hdrop
    exact @gets (.bool false) "alse" (by simp [Draft.passedFault?]) (by simp [readValue, hdrop])

theorem readable_number {text : List Char} : Readable .value (.number text :: rest) rest := by
  intro hmark fuel room input h hfuel
  obtain ⟨fuel, rfl⟩ : ∃ f, fuel = f + 1 := ⟨fuel - 1, by omega⟩
  obtain ⟨hformed, behind, hdrop, hspelled, hlt⟩ := h.dropBlanks_cons
  obtain ⟨numeral, hfront, c, others, rfl, hc⟩ := JsonToken.exists_front hformed
  have hreads := hfront.read behind (hspelled.ends hmark)
  have hvalue : readValue (fuel + 1) room input = number (some c :: (others.map some ++ behind)) := by
    have hdrop : dropBlanks input = some c :: (others.map some ++ behind) := hdrop
    have hne {d : Char} := @Numeral.ne_of_start c d hc
    have hstart : (c = '-' || c.isDigit) = true := by simpa using hc
    simp only [readValue, hdrop, hne (d := '"') (by decide) rfl, hne (d := '[') (by decide) rfl,
      hne (d := '{') (by decide) rfl, hne (d := 'n') (by decide) rfl, hne (d := 't') (by decide) rfl,
      hne (d := 'f') (by decide) rfl, hstart, if_true, if_false]
  rw [hvalue, number, show Numeral.read (some c :: (others.map some ++ behind)) = _ from hreads]
  simp only
  split <;> exact .intro (by simp [Draft.passedFault?]) hspelled hlt

theorem readable_string {content : List Char} : Readable .value (.string content :: rest) rest := by
  intro _ fuel room input h hfuel
  obtain ⟨fuel, rfl⟩ : ∃ f, fuel = f + 1 := ⟨fuel - 1, by omega⟩
  obtain ⟨hformed, behind, hdrop, hspelled, hlt⟩ := h.dropBlanks_cons
  obtain ⟨text, hread⟩ := @SpelledText.exists_read behind content hformed
  have hdrop : dropBlanks input = some '"' :: (content.map some ++ some '"' :: behind) := by
    rw [hdrop, JsonToken.text, List.map_append, List.append_assoc]
    rfl
  have hvalue : readValue (fuel + 1) room input = Document.string (content.map some ++ some '"' :: behind) := by
    simp [readValue, hdrop]
  rw [hvalue, Document.string, hread]
  cases text <;> exact .intro (by simp [Draft.passedFault?]) hspelled hlt

theorem readable_array (h : ∀ fuel room input, Spelled tokens input → 2 * input.length + 3 ≤ fuel →
      Gets input rest
        (Draft.passedItemsFault? (readItems fuel room true input).2.1 (readItems fuel room true input).1)
        (readItems fuel room true input).2.2) : Readable .value (.mark '[' :: tokens) rest := by
  intro _ fuel room input hinput hfuel
  obtain ⟨fuel, rfl⟩ : ∃ f, fuel = f + 1 := ⟨fuel - 1, by omega⟩
  obtain ⟨_, behind, hdrop, hspelled, hlt⟩ := hinput.dropBlanks_cons
  have hdrop : dropBlanks input = some '[' :: behind := hdrop
  have hread : readValue (fuel + 1) room input = (nested room (.array (readItems fuel (room - 1) true behind).1
      (readItems fuel (room - 1) true behind).2.1), (readItems fuel (room - 1) true behind).2.2) := by
    simp [readValue, hdrop]
  rw [hread]
  simp only [passedFault?_nested, Draft.passedFault?]
  exact (h fuel (room - 1) behind hspelled (by omega)).behind (Nat.le_of_lt hlt)

theorem readable_object (h : ∀ fuel room input, Spelled tokens input → 2 * input.length + 3 ≤ fuel →
      Gets input rest
        (Draft.passedMembersFault? (readMembers fuel room true input).2.1 (readMembers fuel room true input).1)
        (readMembers fuel room true input).2.2) : Readable .value (.mark '{' :: tokens) rest := by
  intro _ fuel room input hinput hfuel
  obtain ⟨fuel, rfl⟩ : ∃ f, fuel = f + 1 := ⟨fuel - 1, by omega⟩
  obtain ⟨_, behind, hdrop, hspelled, hlt⟩ := hinput.dropBlanks_cons
  have hdrop : dropBlanks input = some '{' :: behind := hdrop
  have hread : readValue (fuel + 1) room input = (nested room (.object (readMembers fuel (room - 1) true behind).1
      (readMembers fuel (room - 1) true behind).2.1), (readMembers fuel (room - 1) true behind).2.2) := by
    simp [readValue, hdrop]
  rw [hread]
  simp only [passedFault?_nested, Draft.passedFault?]
  exact (h fuel (room - 1) behind hspelled (by omega)).behind (Nat.le_of_lt hlt)

/-- The first token of a value closes nothing. -/
theorem exists_cons_of_derives (h : Derives .value tokens rest) :
    ∃ t others, tokens = t :: others ∧ t ≠ .mark ']' ∧ t ≠ .mark '}' := by
  cases h <;> exact ⟨_, _, rfl, by simp, by simp⟩

/-- An item, and the items behind it up to the closing bracket. -/
theorem readable_items {behind : List JsonToken} (hderives : Derives .value tokens others)
    (hvalue : Readable .value tokens others) (hmark : ∀ t ∈ others.head?, ∃ c, t = .mark c)
    (hothers : ∀ fuel room input, Spelled others input → 2 * input.length + 3 ≤ fuel → Gets input behind
      (Draft.passedItemsFault? (readItems fuel room false input).2.1 (readItems fuel room false input).1)
      (readItems fuel room false input).2.2) {isFirst : Bool} {fuel room : Nat}
    (hinput : Spelled (if isFirst then tokens else .mark ',' :: tokens) input) (hfuel : 2 * input.length + 3 ≤ fuel) :
    Gets input behind
      (Draft.passedItemsFault? (readItems fuel room isFirst input).2.1 (readItems fuel room isFirst input).1)
      (readItems fuel room isFirst input).2.2 := by
  obtain ⟨fuel, rfl⟩ : ∃ f, fuel = f + 1 := ⟨fuel - 1, by omega⟩
  obtain ⟨t, ts, rfl, hclose, -⟩ := exists_cons_of_derives hderives
  obtain ⟨c, more, hdrop, hbracket, -, hsep, hspelled, hlength⟩ := exists_separated hinput
  have hitem := hvalue hmark fuel room _ hspelled (by omega)
  rw [readItems, hdrop]
  simp only [hbracket hclose, hsep, if_true, if_false]
  generalize readValue fuel room (if isFirst = true then c :: more else more) = result at hitem
  obtain ⟨item, out⟩ := result
  cases hitem with
  | @intro after hfault hrest hlt =>
    have hlength : after.length < input.length := Nat.lt_of_lt_of_le hlt hlength
    simp only at hfault ⊢
    rw [Draft.passedItemsFault?, hfault]
    exact .behind (Nat.le_of_lt hlength) (hothers fuel room after hrest (by omega))

/-- A member, and the members behind it up to the closing brace. -/
theorem readable_members {key : List Char} {behind : List JsonToken} (hvalue : Readable .value tokens others)
    (hmark : ∀ t ∈ others.head?, ∃ c, t = .mark c)
    (hothers : ∀ fuel room input, Spelled others input → 2 * input.length + 3 ≤ fuel → Gets input behind
      (Draft.passedMembersFault? (readMembers fuel room false input).2.1 (readMembers fuel room false input).1)
      (readMembers fuel room false input).2.2) {isFirst : Bool} {fuel room : Nat}
    (hinput : Spelled (if isFirst then .string key :: .mark ':' :: tokens
      else .mark ',' :: .string key :: .mark ':' :: tokens) input) (hfuel : 2 * input.length + 3 ≤ fuel) :
    Gets input behind
      (Draft.passedMembersFault? (readMembers fuel room isFirst input).2.1 (readMembers fuel room isFirst input).1)
      (readMembers fuel room isFirst input).2.2 := by
  obtain ⟨fuel, rfl⟩ : ∃ f, fuel = f + 1 := ⟨fuel - 1, by omega⟩
  obtain ⟨c, more, hdrop, -, hbrace, hsep, hspelled, hlength⟩ := exists_separated hinput
  obtain ⟨hformed, afterKey, hkey, hcolon, hltKey⟩ := hspelled.dropBlanks_cons
  obtain ⟨_, start, hstart, hspelled, hltColon⟩ := hcolon.dropBlanks_cons
  obtain ⟨text, hread⟩ := @SpelledText.exists_read afterKey key hformed
  have hkey : dropBlanks (if isFirst = true then c :: more else more) =
      some '"' :: (key.map some ++ some '"' :: afterKey) := by
    rw [hkey, JsonToken.text, List.map_append, List.append_assoc]
    rfl
  have hstart : dropBlanks afterKey = some ':' :: start := hstart
  have hmember := hvalue hmark fuel room start hspelled (by omega)
  rw [readMembers, hdrop]
  simp only [hbrace (by simp), hsep, if_true, if_false, hkey, hread, hstart]
  generalize readValue fuel room start = result at hmember
  obtain ⟨value, out⟩ := result
  cases hmember with
  | @intro after hfault hrest hlt =>
    have hlength : after.length < input.length := by omega
    simp only at hfault ⊢
    rw [Draft.passedMembersFault?, hfault]
    exact .behind (Nat.le_of_lt hlength) (hothers fuel room after hrest (by omega))

/-- What the grammar derives is read. -/
theorem readable_of_derives {part : JsonPart} (h : Derives part tokens rest) : Readable part tokens rest := by
  induction h with
  | word => exact readable_word
  | number => exact readable_number
  | string => exact readable_string
  | emptyArray => exact readable_array fun _ _ _ hinput hfuel => gets_readItems_close hinput (by omega)
  | array _ ih => exact readable_array fun fuel room input => ih _ rfl true fuel room input
  | emptyObject => exact readable_object fun _ _ _ hinput hfuel => gets_readMembers_close hinput (by omega)
  | object _ ih => exact readable_object fun fuel room input => ih _ rfl true fuel room input
  | lastItem h ih =>
    rintro behind rfl isFirst fuel room input hinput hfuel
    exact readable_items h ih (by simp) (fun _ _ _ hinput hfuel => gets_readItems_close hinput (by omega)) hinput hfuel
  | item h _ ih ihitems =>
    rintro behind rfl isFirst fuel room input hinput hfuel
    exact readable_items h ih (by simp) (fun fuel room input => ihitems _ rfl false fuel room input) hinput hfuel
  | lastMember _ ih =>
    rintro behind rfl isFirst fuel room input hinput hfuel
    exact readable_members ih (by simp) (fun _ _ _ hinput hfuel => gets_readMembers_close hinput (by omega)) hinput
      hfuel
  | member _ _ ih ihmembers =>
    rintro behind rfl isFirst fuel room input hinput hfuel
    exact readable_members ih (by simp) (fun fuel room input => ihmembers _ rfl false fuel room input) hinput hfuel

/-- A document is read to its end without a fault. -/
theorem isRead_of_isDocument {text : String} {pieces : List JsonPiece} (h : IsDocument pieces)
    (hwrite : text.toList = JsonPiece.write pieces) : IsRead text := by
  have hspelled : Spelled (pieces.filterMap (·.token?)) (text.toList.map some) :=
    ⟨pieces, by rw [hwrite], fun p hp => ⟨h.formed p hp, h.uncommented p hp⟩, rfl⟩
  have hgets := readable_of_derives h.derives (by simp) (2 * (text.toList.map some).length + 2) maxDepth _ hspelled
    (Nat.le_refl _)
  suffices h : (ofText text).value.passedFault? = none ∧ (ofText text).isFollowed = false from ⟨h.1, h.2⟩
  unfold ofText ofInput
  generalize readValue (2 * (text.toList.map some).length + 2) maxDepth (text.toList.map some) = result at hgets
  obtain ⟨value, out⟩ := result
  cases hgets with
  | intro hfault hrest _ => exact ⟨hfault, by simp [hrest.dropBlanks_nil]⟩

/-- A text is read to its end without a fault exactly when it is a document. -/
theorem isRead_iff {text : String} :
    IsRead text ↔ ∃ pieces, IsDocument pieces ∧ text.toList = JsonPiece.write pieces := by
  constructor
  · exact exists_isDocument
  · intro h
    obtain ⟨pieces, hpieces, hwrite⟩ := h
    exact isRead_of_isDocument hpieces hwrite

end Document

end FieldRemap
