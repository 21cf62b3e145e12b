/-
  FieldRemap.Proofs.Skim — a text read past the contents of its strings.

  Skimming a text keeps what stands outside its strings and the quotes around them; it stops
  where a string is not well formed, or at a single quote outside (`skim`). A document skims to
  itself without the contents of its strings (`skim_write`), and a text that skims to the same
  has the same pieces, but for those contents (`exists_pieces_of_skim`).

  While a text skims, the quote map stands where the skimmer does (`Agrees.skim`), so what skims
  nests its single quotes, as every text does that the reader takes for a document
  (`Document.nests_of_isRead`).
-/

import FieldRemap.Proofs.Context
import FieldRemap.Proofs.Document

namespace FieldRemap

inductive SkimPlace where
  | outside
  | inside (place : StringPlace)
  deriving DecidableEq, Repr

def SkimPlace.next (place : SkimPlace) (c : Char) : Option (SkimPlace × List Char) :=
  match place with
  | .outside => if c = '"' then some (.inside .plain, [c]) else if c = '\'' then none else some (.outside, [c])
  | .inside place =>
    if place = .plain ∧ c = '"' then some (.outside, [c])
    else (place.next c).map fun place => (.inside place, [])

def skim (place : SkimPlace) : List Char → Option (SkimPlace × List Char)
  | [] => some (place, [])
  | c :: text =>
    (place.next c).bind fun (middle, k) => (skim middle text).map fun (after, kept) => (after, k ++ kept)

variable {place middle after : SkimPlace} {c : Char} {text a b k kept : List Char}

theorem skim_cons : skim place (c :: text) = some (after, kept) ↔
    ∃ middle k rest, place.next c = some (middle, k) ∧ skim middle text = some (after, rest) ∧ kept = k ++ rest := by
  simp only [skim, Option.bind_eq_some_iff, Option.map_eq_some_iff, Prod.exists, Prod.mk.injEq]
  constructor
  · intro h
    obtain ⟨middle, k, hnext, after, rest, hskim, rfl, rfl⟩ := h
    exact ⟨middle, k, rest, hnext, hskim, rfl⟩
  · intro h
    obtain ⟨middle, k, rest, hnext, hskim, rfl⟩ := h
    exact ⟨middle, k, hnext, after, rest, hskim, rfl, rfl⟩

theorem skim_append : skim place (a ++ b) = some (after, kept) ↔
    ∃ middle k rest, skim place a = some (middle, k) ∧ skim middle b = some (after, rest) ∧ kept = k ++ rest := by
  induction a generalizing place kept with
  | nil => simp [skim]
  | cons c a ih =>
    simp only [List.cons_append, skim_cons, ih]
    constructor
    · intro h
      obtain ⟨middle, k, _, hnext, ⟨middle', k', rest, hskim, hrest, rfl⟩, rfl⟩ := h
      exact ⟨middle', k ++ k', rest, ⟨middle, k, k', hnext, hskim, rfl⟩, hrest, by rw [List.append_assoc]⟩
    · intro h
      obtain ⟨middle', _, rest, ⟨middle, k, k', hnext, hskim, rfl⟩, hrest, rfl⟩ := h
      exact ⟨middle, k, k' ++ rest, hnext, ⟨middle', k', rest, hskim, hrest, rfl⟩, by rw [List.append_assoc]⟩

/-- Skimming goes on where it stands. -/
theorem skim_append_of_eq (ha : skim place a = some (middle, k)) (hb : skim middle b = some (after, kept)) :
    skim place (a ++ b) = some (after, k ++ kept) :=
  skim_append.mpr ⟨middle, k, kept, ha, hb, rfl⟩

/-- Outside a string each character is kept. -/
theorem SkimPlace.next_outside (h : SkimPlace.outside.next c = some (middle, k)) :
    middle = (if c = '"' then .inside .plain else .outside) ∧ k = [c] ∧ c ≠ '\'' := by
  by_cases hq : c = '"'
  · subst hq
    obtain ⟨rfl, rfl⟩ := Prod.mk.inj (Option.some.inj h)
    exact ⟨rfl, rfl, by decide⟩
  · by_cases hs : c = '\''
    · simp [SkimPlace.next, hs] at h
    · simp only [SkimPlace.next, hq, hs, if_false, Option.some.injEq, Prod.mk.injEq] at h
      obtain ⟨rfl, rfl⟩ := h
      exact ⟨(if_neg hq).symm, rfl, hs⟩

/-- Inside a string nothing is kept up to the quote that closes it. -/
theorem SkimPlace.next_inside {place : StringPlace} (hopen : ¬ (place = .plain ∧ c = '"'))
    (h : (SkimPlace.inside place).next c = some (middle, k)) : ∃ behind, middle = .inside behind ∧
      place.next c = some behind := by
  rw [SkimPlace.next, if_neg hopen] at h
  obtain ⟨behind, hbehind, heq⟩ := Option.map_eq_some_iff.mp h
  exact ⟨behind, (Prod.mk.inj heq).1.symm, hbehind⟩

/-! ## Contexts -/

/-- The skimmer and the quote map stand in the same part of a text. -/
inductive Agrees : SkimPlace → Context → Prop
  | outside : Agrees .outside .outside
  | plain {inner : ExpressionContext} {escaped : Bool} : Agrees (.inside .plain) (.literal inner escaped)
  | digits {more : Nat} {inner : ExpressionContext} {escaped : Bool} :
      Agrees (.inside (.digits more)) (.literal inner escaped)
  | escape {inner : ExpressionContext} {escaped : Bool} : Agrees (.inside .escape) (.backslash inner escaped)

namespace Agrees

variable {context : Context}

/-- A character that closes and escapes nothing keeps the context in the literal. -/
theorem next_literal {inner : ExpressionContext} {escaped : Bool} (hq : c ≠ '"') (hb : c ≠ '\\') :
    ∃ inner', (Context.literal inner escaped).next c = .literal inner' false := by
  cases escaped
  · exact ⟨inner.afterPlain c, by simp [Context.next, hq, hb]⟩
  · exact ⟨inner, by simp [Context.next, hq, hb]⟩

theorem next_backslash {inner : ExpressionContext} {escaped : Bool} :
    ∃ inner' escaped', (Context.backslash inner escaped).next c = .literal inner' escaped' := by
  cases escaped
  · by_cases hq : c = '"'
    · exact ⟨inner.afterQuote, false, by simp [Context.next, hq]⟩
    · by_cases hb : c = '\\'
      · exact ⟨inner, inner != .code, by simp [Context.next, hb]⟩
      · exact ⟨inner, false, by simp [Context.next, hq, hb]⟩
  · exact ⟨inner, false, rfl⟩

theorem inside {place behind : StringPlace} (h : Agrees (.inside place) context) (hn : place.next c = some behind) :
    Agrees (.inside behind) (context.next c) := by
  cases h with
  | @plain inner escaped =>
    simp only [StringPlace.next] at hn
    split at hn
    · cases hn
    · next hquote =>
      split at hn
      · next hb =>
        obtain rfl := Option.some.inj hn
        subst hb
        exact .escape
      · next hb =>
        obtain rfl := Option.some.inj hn
        obtain ⟨inner', hnext⟩ := @next_literal c inner escaped (by simp_all) hb
        rw [hnext]
        exact .plain
  | @digits more inner escaped =>
    simp only [StringPlace.next] at hn
    split at hn
    · next hdigit =>
      obtain rfl := Option.some.inj hn
      have hc : c ≠ '"' := by
        rintro rfl
        exact absurd hdigit (by decide)
      obtain ⟨inner', hnext⟩ := @next_literal c inner escaped hc
        fun h => by rw [h] at hdigit; exact absurd hdigit (by decide)
      rw [hnext]
      cases more
      · exact .plain
      · exact .digits
    · cases hn
  | @escape inner escaped =>
    obtain ⟨inner', escaped', hnext⟩ := @next_backslash c inner escaped
    rw [hnext]
    simp only [StringPlace.next] at hn
    split at hn
    · obtain rfl := Option.some.inj hn
      exact .digits
    · split at hn
      · obtain rfl := Option.some.inj hn
        exact .plain
      · cases hn

theorem next (h : Agrees place context) (hn : place.next c = some (after, k)) :
    (context = .outside → c ≠ '\'') ∧ Agrees after (context.next c) := by
  cases place with
  | outside =>
    cases h
    obtain ⟨rfl, _, hs⟩ := SkimPlace.next_outside hn
    refine ⟨fun _ => hs, ?_⟩
    by_cases hq : c = '"'
    · subst hq
      exact .plain
    · simp only [Context.next, hq, hs, if_false]
      exact .outside
  | inside place =>
    constructor
    · rintro rfl
      cases h
    · by_cases hclose : place = .plain ∧ c = '"'
      · obtain ⟨rfl, rfl⟩ := hclose
        obtain ⟨rfl, _⟩ := Prod.mk.inj (Option.some.inj hn)
        cases h
        exact .outside
      · obtain ⟨behind, rfl, hnext⟩ := SkimPlace.next_inside hclose hn
        exact h.inside hnext

theorem skim (h : Agrees place context) (hs : skim place text = some (after, kept)) :
    context.nests text = true ∧ Agrees after (context.read text) := by
  induction text generalizing place context kept with
  | nil =>
    obtain ⟨rfl, _⟩ := Prod.mk.inj (Option.some.inj hs)
    exact ⟨rfl, h⟩
  | cons c text ih =>
    obtain ⟨middle, k, rest, hnext, hrest, rfl⟩ := skim_cons.mp hs
    obtain ⟨hc, hmiddle⟩ := h.next hnext
    obtain ⟨hnests, hafter⟩ := ih hmiddle hrest
    exact ⟨Context.nests_cons.mpr ⟨hc, hnests⟩, hafter⟩

end Agrees

/-! ## What skims -/

/-- A text without a quote is kept. -/
theorem skim_of_not_quote (h : ∀ c ∈ text, c ≠ '"' ∧ c ≠ '\'' ∧ c ≠ '\\') : skim .outside text = some (.outside, text) := by
  induction text with
  | nil => rfl
  | cons c text ih =>
    obtain ⟨⟨hq, hs, -⟩, htext⟩ := List.forall_mem_cons.mp h
    exact skim_cons.mpr ⟨.outside, [c], text, by simp [SkimPlace.next, hq, hs], ih htext, rfl⟩

/-- What can stand inside a string is passed over. -/
theorem skim_of_read {place after : StringPlace} (h : place.read text = some after) :
    skim (.inside place) text = some (.inside after, []) := by
  induction text generalizing place with
  | nil =>
    obtain rfl := Option.some.inj h
    rfl
  | cons c text ih =>
    obtain ⟨middle, hnext, hread⟩ := Option.bind_eq_some_iff.mp h
    refine skim_cons.mpr ⟨.inside middle, [], [], ?_, ih hread, rfl⟩
    have hopen : ¬ (place = .plain ∧ c = '"') := by
      rintro ⟨rfl, rfl⟩
      cases hnext
    rw [SkimPlace.next, if_neg hopen, hnext]
    rfl

/-- A string with its quotes is kept without its contents. -/
theorem skim_string (h : isContent text = true) :
    skim .outside ('"' :: text ++ ['"']) = some (.outside, ['"', '"']) :=
  skim_append_of_eq
    (skim_cons.mpr ⟨.inside .plain, ['"'], [], rfl, skim_of_read (beq_iff_eq.mp h), rfl⟩)
    (skim_cons.mpr ⟨.outside, ['"'], [], rfl, rfl, rfl⟩)

/-- A token is a string, or there is no quote and no backslash in it. -/
theorem JsonToken.string_or_not_quote {token : JsonToken} (h : token.isFormed = true) :
    (∃ content, token = .string content ∧ isContent content = true) ∨
      token.erase = token ∧ ∀ c ∈ token.text, c ≠ '"' ∧ c ≠ '\'' ∧ c ≠ '\\' := by
  cases token with
  | string content => exact .inl ⟨content, rfl, h⟩
  | mark c =>
    have hmarks : ∀ c ∈ ['[', ']', '{', '}', ':', ','], c ≠ '"' ∧ c ≠ '\'' ∧ c ≠ '\\' := forall_mem_of_all (by decide)
    exact .inr ⟨rfl, fun d hd => List.mem_singleton.mp hd ▸ hmarks c (by simpa [isFormed] using h)⟩
  | word letters =>
    have hwords : ∀ word ∈ ["null".toList, "true".toList, "false".toList],
        word.all (fun c => c ≠ '"' ∧ c ≠ '\'' ∧ c ≠ '\\') = true := by decide
    have hletters := hwords letters (by simpa only [isFormed, decide_eq_true_eq] using h)
    exact .inr ⟨rfl, forall_mem_of_all hletters⟩
  | number text =>
    obtain ⟨_, hfront, _⟩ := exists_front h
    exact .inr ⟨rfl, hfront.plain⟩

namespace JsonPiece

variable {piece : JsonPiece} {pieces : List JsonPiece}

/-- So is a piece that is no comment. -/
theorem string_or_not_quote (h : piece.isFormed = true) (hplain : piece.comment? = none) :
    (∃ content, piece = .token (.string content) ∧ isContent content = true) ∨
      piece.erase = piece ∧ ∀ c ∈ piece.text, c ≠ '"' ∧ c ≠ '\'' ∧ c ≠ '\\' := by
  cases piece with
  | token t =>
    rcases t.string_or_not_quote h with ⟨content, rfl, hcontent⟩ | ⟨herase, hquote⟩
    · exact .inl ⟨content, rfl, hcontent⟩
    · exact .inr ⟨congrArg JsonPiece.token herase, hquote⟩
  | blank c =>
    refine .inr ⟨rfl, fun d hd => ?_⟩
    obtain rfl := List.mem_singleton.mp hd
    refine ⟨?_, ?_, ?_⟩ <;>
    · rintro rfl
      cases h
  | line | block => cases hplain

theorem skim_text (h : piece.isFormed = true) (hplain : piece.comment? = none) :
    skim .outside piece.text = some (.outside, piece.erase.text) := by
  rcases string_or_not_quote h hplain with ⟨content, rfl, hcontent⟩ | ⟨herase, hquote⟩
  · exact skim_string hcontent
  · rw [herase]
    exact skim_of_not_quote hquote

/-- A piece that is no comment is closed. -/
theorem closed_text (h : piece.isFormed = true) (hplain : piece.comment? = none) : Closed piece.text := by
  obtain ⟨hnests, hagrees⟩ := Agrees.outside.skim (skim_text h hplain)
  refine ⟨hnests, ?_⟩
  generalize Context.outside.read piece.text = context at hagrees
  cases hagrees
  rfl

/-- Pieces without comments are kept, but for the contents of their strings. -/
theorem skim_write (h : ∀ piece ∈ pieces, piece.isFormed = true)
    (hplain : ∀ piece ∈ pieces, piece.comment? = none) :
    skim .outside (write pieces) = some (.outside, write (pieces.map erase)) := by
  induction pieces with
  | nil => rfl
  | cons piece pieces ih =>
    obtain ⟨hpiece, h⟩ := List.forall_mem_cons.mp h
    obtain ⟨hnone, hplain⟩ := List.forall_mem_cons.mp hplain
    exact skim_append_of_eq (skim_text hpiece hnone) (ih h hplain)

end JsonPiece

/-! ## What skims to the same -/

theorem exists_of_skim_outside (h : skim .outside text = some (after, c :: kept)) :
    ∃ rest, text = c :: rest ∧
      skim (if c = '"' then .inside .plain else .outside) rest = some (after, kept) := by
  cases text with
  | nil => cases h
  | cons d text =>
    obtain ⟨middle, k, rest, hnext, hskim, hkept⟩ := skim_cons.mp h
    obtain ⟨rfl, rfl, _⟩ := SkimPlace.next_outside hnext
    obtain ⟨rfl, rfl⟩ := List.cons.inj hkept
    exact ⟨text, rfl, hskim⟩

theorem exists_of_skim_not_quote (ha : ∀ c ∈ a, c ≠ '"') (h : skim .outside text = some (after, a ++ kept)) :
    ∃ rest, text = a ++ rest ∧ skim .outside rest = some (after, kept) := by
  induction a generalizing text with
  | nil => exact ⟨text, rfl, h⟩
  | cons c a ih =>
    obtain ⟨hc, ha⟩ := List.forall_mem_cons.mp ha
    obtain ⟨behind, rfl, hbehind⟩ := exists_of_skim_outside h
    rw [if_neg hc] at hbehind
    obtain ⟨rest, rfl, hrest⟩ := ih ha hbehind
    exact ⟨rest, rfl, hrest⟩

/-- What gets out of a string closes it behind contents that can stand there. -/
theorem exists_of_skim_inside {place : StringPlace} (h : skim (.inside place) text = some (.outside, kept)) :
    ∃ content rest k, text = content ++ '"' :: rest ∧ place.read content = some .plain ∧ kept = '"' :: k ∧
      skim .outside rest = some (.outside, k) := by
  induction text generalizing place kept with
  | nil => cases h
  | cons c text ih =>
    obtain ⟨middle, k, rest, hnext, hskim, rfl⟩ := skim_cons.mp h
    rw [SkimPlace.next] at hnext
    split at hnext
    · next hclose =>
      obtain ⟨rfl, rfl⟩ := hclose
      obtain ⟨rfl, rfl⟩ := Prod.mk.inj (Option.some.inj hnext)
      exact ⟨[], text, rest, rfl, rfl, rfl, hskim⟩
    · obtain ⟨behind, hbehind, hmiddle⟩ := Option.map_eq_some_iff.mp hnext
      obtain ⟨rfl, rfl⟩ := Prod.mk.inj hmiddle
      obtain ⟨content, rest', k, rfl, hread, hkept, hrest⟩ := ih hskim
      refine ⟨c :: content, rest', k, rfl, ?_, hkept, hrest⟩
      rw [StringPlace.read, List.foldlM_cons, hbehind]
      exact hread

theorem exists_string_of_skim (h : skim .outside text = some (.outside, ['"', '"'] ++ kept)) :
    ∃ content rest, text = '"' :: content ++ ['"'] ++ rest ∧ isContent content = true ∧
      skim .outside rest = some (.outside, kept) := by
  obtain ⟨behind, rfl, hbehind⟩ := exists_of_skim_outside h
  obtain ⟨content, rest, k, rfl, hread, hkept, hrest⟩ := exists_of_skim_inside hbehind
  obtain ⟨_, rfl⟩ := List.cons.inj hkept
  exact ⟨content, rest, by simp, beq_iff_eq.mpr hread, hrest⟩

namespace JsonPiece

theorem comment?_erase (piece : JsonPiece) : piece.erase.comment? = piece.comment? := by
  cases piece <;> rfl

theorem token?_erase (piece : JsonPiece) : piece.erase.token? = piece.token?.map JsonToken.erase := by
  cases piece <;> rfl

/-- A text that skims to what a piece is kept as starts with a piece that is kept so. -/
theorem exists_of_skim {piece : JsonPiece} (h : piece.isFormed = true) (hplain : piece.comment? = none)
    (hskim : skim .outside text = some (.outside, piece.erase.text ++ kept)) :
    ∃ (piece' : JsonPiece) (rest : List Char), text = piece'.text ++ rest ∧ piece'.isFormed = true ∧
      piece'.erase = piece.erase ∧ skim .outside rest = some (.outside, kept) := by
  rcases string_or_not_quote h hplain with ⟨content, rfl, _⟩ | ⟨herase, hquote⟩
  · obtain ⟨content, rest, rfl, hcontent, hrest⟩ := exists_string_of_skim hskim
    exact ⟨.token (.string content), rest, rfl, hcontent, rfl, hrest⟩
  · rw [herase] at hskim
    obtain ⟨rest, rfl, hrest⟩ := exists_of_skim_not_quote (fun c hc => (hquote c hc).1) hskim
    exact ⟨piece, rest, rfl, h, rfl, hrest⟩

/-- A text that skims to what pieces are kept as has pieces that are kept so. -/
theorem exists_pieces_of_skim {pieces : List JsonPiece} (h : ∀ piece ∈ pieces, piece.isFormed = true)
    (hplain : ∀ piece ∈ pieces, piece.comment? = none)
    (hskim : skim .outside text = some (.outside, write (pieces.map erase))) :
    ∃ pieces', write pieces' = text ∧ (∀ piece ∈ pieces', piece.isFormed = true) ∧
      pieces'.map erase = pieces.map erase := by
  induction pieces generalizing text with
  | nil =>
    cases text with
    | nil => exact ⟨[], rfl, nofun, rfl⟩
    | cons c text =>
      obtain ⟨_, k, rest, hnext, _, hkept⟩ := skim_cons.mp hskim
      obtain ⟨_, rfl, _⟩ := SkimPlace.next_outside hnext
      cases hkept
  | cons piece pieces ih =>
    obtain ⟨hpiece, h⟩ := List.forall_mem_cons.mp h
    obtain ⟨hnone, hplain⟩ := List.forall_mem_cons.mp hplain
    obtain ⟨piece', rest, rfl, hformed, herase, hrest⟩ := exists_of_skim hpiece hnone hskim
    obtain ⟨pieces', rfl, hformeds, herases⟩ := ih h hplain hrest
    refine ⟨piece' :: pieces', rfl, List.forall_mem_cons.mpr ⟨hformed, hformeds⟩, ?_⟩
    rw [List.map_cons, List.map_cons, herase, herases]

end JsonPiece

/-! ## Documents -/

namespace JsonToken

variable {token : JsonToken} {tokens rest : List JsonToken}

theorem erase_eq_mark : token.erase = .mark c ↔ token = .mark c := by
  cases token <;> simp [erase]

theorem erase_eq_word {letters : List Char} : token.erase = .word letters ↔ token = .word letters := by
  cases token <;> simp [erase]

theorem erase_eq_number : token.erase = .number text ↔ token = .number text := by
  cases token <;> simp [erase]

theorem erase_eq_string : token.erase = .string [] ↔ ∃ content, token = .string content := by
  cases token <;> simp [erase]

theorem exists_mark (h : tokens.map erase = erase (.mark c) :: rest.map erase) :
    ∃ others, tokens = .mark c :: others ∧ others.map erase = rest.map erase := by
  obtain ⟨token, others, rfl, ht, hothers⟩ := List.map_eq_cons_iff.mp h
  exact ⟨others, by rw [erase_eq_mark.mp ht], hothers⟩

theorem exists_key {key : List Char}
    (h : tokens.map erase = erase (.string key) :: erase (.mark ':') :: rest.map erase) :
    ∃ key' others, tokens = .string key' :: .mark ':' :: others ∧ others.map erase = rest.map erase := by
  obtain ⟨token, behind, rfl, ht, hbehind⟩ := List.map_eq_cons_iff.mp h
  obtain ⟨key', rfl⟩ := erase_eq_string.mp ht
  obtain ⟨others, rfl, hothers⟩ := exists_mark hbehind
  exact ⟨key', others, rfl, hothers⟩

end JsonToken

open JsonToken (exists_mark exists_key) in
/-- What tokens derive does not depend on the contents of strings. -/
theorem Derives.of_erase {part : JsonPart} {tokens tokens' rest : List JsonToken} (h : Derives part tokens rest)
    (he : tokens'.map JsonToken.erase = tokens.map JsonToken.erase) :
    ∃ rest', Derives part tokens' rest' ∧ rest'.map JsonToken.erase = rest.map JsonToken.erase := by
  induction h generalizing tokens' with
  | word =>
    obtain ⟨t, rest', rfl, ht, hrest⟩ := List.map_eq_cons_iff.mp he
    obtain rfl := JsonToken.erase_eq_word.mp ht
    exact ⟨rest', .word, hrest⟩
  | number =>
    obtain ⟨t, rest', rfl, ht, hrest⟩ := List.map_eq_cons_iff.mp he
    obtain rfl := JsonToken.erase_eq_number.mp ht
    exact ⟨rest', .number, hrest⟩
  | string =>
    obtain ⟨t, rest', rfl, ht, hrest⟩ := List.map_eq_cons_iff.mp he
    obtain ⟨content, rfl⟩ := JsonToken.erase_eq_string.mp ht
    exact ⟨rest', .string, hrest⟩
  | emptyArray =>
    obtain ⟨behind, rfl, hbehind⟩ := exists_mark he
    obtain ⟨rest', rfl, hrest⟩ := exists_mark hbehind
    exact ⟨rest', .emptyArray, hrest⟩
  | array _ ih =>
    obtain ⟨behind, rfl, hbehind⟩ := exists_mark he
    obtain ⟨closed, hitems, hclosed⟩ := ih hbehind
    obtain ⟨rest', rfl, hrest⟩ := exists_mark hclosed
    exact ⟨rest', .array hitems, hrest⟩
  | emptyObject =>
    obtain ⟨behind, rfl, hbehind⟩ := exists_mark he
    obtain ⟨rest', rfl, hrest⟩ := exists_mark hbehind
    exact ⟨rest', .emptyObject, hrest⟩
  | object _ ih =>
    obtain ⟨behind, rfl, hbehind⟩ := exists_mark he
    obtain ⟨closed, hmembers, hclosed⟩ := ih hbehind
    obtain ⟨rest', rfl, hrest⟩ := exists_mark hclosed
    exact ⟨rest', .object hmembers, hrest⟩
  | lastItem _ ih =>
    obtain ⟨rest', hvalue, hrest⟩ := ih he
    exact ⟨rest', .lastItem hvalue, hrest⟩
  | item _ _ ihvalue ihitems =>
    obtain ⟨behind, hvalue, hbehind⟩ := ihvalue he
    obtain ⟨others, rfl, hothers⟩ := exists_mark hbehind
    obtain ⟨rest', hitems, hrest⟩ := ihitems hothers
    exact ⟨rest', .item hvalue hitems, hrest⟩
  | lastMember _ ih =>
    obtain ⟨key, behind, rfl, hbehind⟩ := exists_key he
    obtain ⟨rest', hvalue, hrest⟩ := ih hbehind
    exact ⟨rest', .lastMember hvalue, hrest⟩
  | member _ _ ihvalue ihmembers =>
    obtain ⟨key, behind, rfl, hbehind⟩ := exists_key he
    obtain ⟨comma, hvalue, hcomma⟩ := ihvalue hbehind
    obtain ⟨others, rfl, hothers⟩ := exists_mark hcomma
    obtain ⟨rest', hmembers, hrest⟩ := ihmembers hothers
    exact ⟨rest', .member hvalue hmembers, hrest⟩

/-- Pieces that are those of a document, but for the contents of strings, are a document. -/
theorem IsDocument.of_erase {pieces pieces' : List JsonPiece} (h : IsDocument pieces)
    (hformed : ∀ piece ∈ pieces', piece.isFormed = true)
    (he : pieces'.map JsonPiece.erase = pieces.map JsonPiece.erase) : IsDocument pieces' := by
  have htokens (pieces : List JsonPiece) :
      (pieces.filterMap (·.token?)).map JsonToken.erase = (pieces.map JsonPiece.erase).filterMap (·.token?) := by
    rw [List.map_filterMap, List.filterMap_map]
    exact List.filterMap_congr fun piece _ => (JsonPiece.token?_erase piece).symm
  refine ⟨hformed, fun piece hpiece => ?_, ?_⟩
  · have hmem : piece.erase ∈ pieces.map JsonPiece.erase := he ▸ List.mem_map_of_mem hpiece
    obtain ⟨original, horiginal, heq⟩ := List.mem_map.mp hmem
    rw [← JsonPiece.comment?_erase, ← heq, JsonPiece.comment?_erase]
    exact h.uncommented original horiginal
  · have heq : (pieces'.filterMap (·.token?)).map JsonToken.erase =
        (pieces.filterMap (·.token?)).map JsonToken.erase := by
      rw [htokens, htokens, he]
    obtain ⟨rest, hderives, hrest⟩ := h.derives.of_erase heq
    rwa [List.map_eq_nil_iff.mp hrest] at hderives

/-- A text that is read to its end without a fault nests its single quotes. -/
theorem Document.nests_of_isRead {text : String} (h : IsRead text) : Context.outside.nests text.toList = true := by
  obtain ⟨pieces, hpieces, hwrite⟩ := exists_isDocument h
  rw [hwrite]
  exact (Agrees.outside.skim (JsonPiece.skim_write hpieces.formed hpieces.uncommented)).1

end FieldRemap
