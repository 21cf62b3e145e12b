/-
  FieldRemap.Proofs.Strings — what the quote map records of a document.

  The quote map knows no grammar: it reads quotes and backslashes, and keeps track of the expression
  inside a literal on the way. In a document it finds the strings of the grammar all the same: a
  literal opens at the quote of a string token and at no other character, and its contents are those
  of the token, whatever escapes and expression strings stand in it (`lex_document`). So it does not
  matter to the string tokens in which state the expression is.
-/

import FieldRemap.Proofs.Skim
import FieldRemap.Proofs.Whole

namespace FieldRemap

/-- A string token in a text: where its opening quote stands, and its contents. -/
structure StringToken where
  pos : Nat
  content : List Char
  deriving DecidableEq, Repr

def StringToken.span (token : StringToken) : Span :=
  ⟨token.pos + 1, token.pos + 1 + byteLength token.content⟩

namespace JsonPiece

def content? : JsonPiece → Option (List Char)
  | .token (.string content) => some content
  | _ => none

def stringTokens (pos : Nat) : List JsonPiece → List StringToken
  | [] => []
  | piece :: pieces =>
    (piece.content?.map (StringToken.mk pos)).toList ++ stringTokens (pos + byteLength piece.text) pieces

end JsonPiece

/-! ## Inside a string -/

/-- In what can stand inside a string the quote map stays in the literal. -/
theorem Agrees.through {place after : StringPlace} {context : Context} {text : List Char}
    (h : Agrees (.inside place) context) (hread : place.read text = some after) :
    context.Through (· ≠ .outside) text ∧ Agrees (.inside after) (context.read text) := by
  have hne : context ≠ .outside := by
    rintro rfl
    cases h
  induction text generalizing place context with
  | nil =>
    obtain rfl := Option.some.inj hread
    exact ⟨Context.through_nil.mpr hne, h⟩
  | cons c text ih =>
    obtain ⟨middle, hnext, hread⟩ := Option.bind_eq_some_iff.mp hread
    have hmiddle := h.inside hnext
    obtain ⟨hthrough, hafter⟩ := ih hmiddle hread (by rintro hc; rw [hc] at hmiddle; cases hmiddle)
    exact ⟨Context.through_cons.mpr ⟨hne, hthrough⟩, hafter⟩

/-- The contents of a string stay in the literal, and the next quote closes it. -/
theorem through_of_isContent {content : List Char} (h : isContent content = true) :
    (Context.literal .code false).Through (· ≠ .outside) content ∧
      ((Context.literal .code false).read content).next '"' = .outside := by
  obtain ⟨hthrough, hafter⟩ := Agrees.plain.through (beq_iff_eq.mp h)
  refine ⟨hthrough, ?_⟩
  generalize (Context.literal .code false).read content = context at hafter
  cases hafter
  rfl

/-! ## Openers -/

/-- Inside a literal no other one opens. -/
theorem marks_opensString_of_through {context : Context} {pos : Nat} {text : List Char}
    (h : context.Through (· ≠ .outside) text) : marks Context.opensString context pos text = [] := by
  induction text generalizing context pos with
  | nil => rfl
  | cons c text ih =>
    obtain ⟨hcontext, htext⟩ := Context.through_cons.mp h
    have hopens : context.opensString c = false := by simp [Context.opensString, hcontext]
    simp [marks, hopens, ih htext]

theorem marks_opensString_of_not_quote {pos : Nat} {text : List Char} (h : ∀ c ∈ text, c ≠ '"' ∧ c ≠ '\'' ∧ c ≠ '\\') :
    marks Context.opensString .outside pos text = [] := by
  induction text generalizing pos with
  | nil => rfl
  | cons c text ih =>
    obtain ⟨⟨hq, hs, -⟩, htext⟩ := List.forall_mem_cons.mp h
    simp [marks, Context.opensString, Context.next, hq, hs, ih htext]

theorem literalSpans_of_not_quote {pos opened : Nat} {text rest : List Char} (h : ∀ c ∈ text, c ≠ '"' ∧ c ≠ '\'' ∧ c ≠ '\\') :
    literalSpans .outside pos opened (text ++ rest) = literalSpans .outside (pos + byteLength text) opened rest := by
  induction text generalizing pos opened with
  | nil => rfl
  | cons c text ih =>
    obtain ⟨⟨hq, hs, -⟩, htext⟩ := List.forall_mem_cons.mp h
    have hnext : Context.outside.next c = .outside := by simp [Context.next, hq, hs]
    have hopen : ¬ Context.outside.closes c = true := fun hc => (closes_iff.mp hc).1 rfl
    rw [List.cons_append, literalSpans, if_neg hopen, hnext, ih htext, byteLength_cons, ← Nat.add_assoc]
    exact literalSpans_outside ..

/-! ## Pieces -/

namespace JsonPiece

variable {piece : JsonPiece} {pieces : List JsonPiece} {pos : Nat} {rest : List Char}

theorem content?_of_not_quote (h : ∀ c ∈ piece.text, c ≠ '"' ∧ c ≠ '\'' ∧ c ≠ '\\') : piece.content? = none := by
  unfold content?
  split
  · exact absurd rfl (h '"' List.mem_cons_self).1
  · rfl

/-- At a piece a string opens if it is a string token, at its first character. -/
theorem marks_text (h : piece.isFormed = true) (hplain : piece.comment? = none) :
    marks Context.opensString .outside pos (piece.text ++ rest) =
      (piece.content?.map (StringToken.mk pos)).toList.map (·.pos) ++
        marks Context.opensString .outside (pos + byteLength piece.text) rest := by
  rw [marks_append, (closed_text h hplain).back]
  congr 1
  rcases string_or_not_quote h hplain with ⟨content, rfl, hcontent⟩ | ⟨-, hquote⟩
  · obtain ⟨hthrough, -⟩ := through_of_isContent hcontent
    have hlast : ((Context.literal .code false).read content).opensString '"' = false := by
      simp [Context.opensString, hthrough.read]
    have hbody : marks Context.opensString (.literal .code false) (pos + Char.utf8Size '"')
        (content ++ ['"']) = [] := by
      simp [marks_append, marks_opensString_of_through hthrough, marks, hlast]
    exact congrArg (pos :: ·) hbody
  · rw [marks_opensString_of_not_quote hquote, content?_of_not_quote hquote]
    rfl

/-- The literal in a piece is what stands between the quotes of a string token. -/
theorem literalSpans_text {opened : Nat} (h : piece.isFormed = true) (hplain : piece.comment? = none) :
    literalSpans .outside pos opened (piece.text ++ rest) =
      (piece.content?.map (StringToken.mk pos)).toList.map StringToken.span ++
        literalSpans .outside (pos + byteLength piece.text) opened rest := by
  rcases string_or_not_quote h hplain with ⟨content, rfl, hcontent⟩ | ⟨-, hquote⟩
  · obtain ⟨hthrough, hcloses⟩ := through_of_isContent hcontent
    have hspans := @literalSpans_of_through _ (pos + 1) (pos + 1) content rest '"' hthrough hcloses
    have hsize : pos + 1 + byteLength content + Char.utf8Size '"' =
        pos + byteLength (text (.token (.string content))) := by
      simp [text, JsonToken.text, show Char.utf8Size '"' = 1 by decide]
      omega
    rw [hsize] at hspans
    have htext : text (.token (.string content)) ++ rest = '"' :: (content ++ '"' :: rest) := by
      simp [text, JsonToken.text]
    rw [htext]
    calc literalSpans .outside pos opened ('"' :: (content ++ '"' :: rest))
        = literalSpans (.literal .code false) (pos + 1) (pos + 1) (content ++ '"' :: rest) := rfl
      _ = _ := hspans
      _ = _ := congrArg _ (literalSpans_outside ..)
  · rw [literalSpans_of_not_quote hquote, content?_of_not_quote hquote]
    rfl

/-- Strings open at the string tokens. -/
theorem marks_write (h : ∀ piece ∈ pieces, piece.isFormed = true) (hplain : ∀ piece ∈ pieces, piece.comment? = none) :
    marks Context.opensString .outside pos (write pieces) = (stringTokens pos pieces).map (·.pos) := by
  induction pieces generalizing pos with
  | nil => rfl
  | cons piece pieces ih =>
    obtain ⟨hpiece, h⟩ := List.forall_mem_cons.mp h
    obtain ⟨hnone, hplain⟩ := List.forall_mem_cons.mp hplain
    rw [write_cons, marks_text hpiece hnone, ih h hplain, stringTokens, List.map_append]

/-- The literals are the contents of the string tokens. -/
theorem literalSpans_write {opened : Nat} (h : ∀ piece ∈ pieces, piece.isFormed = true)
    (hplain : ∀ piece ∈ pieces, piece.comment? = none) :
    literalSpans .outside pos opened (write pieces) = (stringTokens pos pieces).map StringToken.span := by
  induction pieces generalizing pos with
  | nil => rfl
  | cons piece pieces ih =>
    obtain ⟨hpiece, h⟩ := List.forall_mem_cons.mp h
    obtain ⟨hnone, hplain⟩ := List.forall_mem_cons.mp hplain
    rw [write_cons, literalSpans_text hpiece hnone, ih h hplain, stringTokens, List.map_append]

end JsonPiece

/-! ## Expression strings -/

namespace QuoteMap

variable {text : List Char} {pos : Nat}

/-- An escaped quote opens an expression string inside a literal, the backslash with it. -/
theorem exists_literal_of_mem_escaped (h : pos ∈ (lex text).escaped.toList) :
    ∃ literal ∈ (lex text).literals.toList, literal.start ≤ pos ∧ pos + 2 ≤ literal.stop := by
  rw [escaped_lex, List.mem_map] at h
  obtain ⟨_, hmark, rfl⟩ := h
  obtain ⟨before, c, rest, htext, hopens, rfl⟩ := mem_marks.mp hmark
  obtain ⟨rfl, front, rfl, hfront⟩ := of_opensEscaped hopens
  have hpart : (Context.outside.read front).Through (· ≠ .outside) ['\\', '"'] := by
    rw [hfront]
    decide
  obtain ⟨literal, hliteral, hstart, hstop⟩ := @exists_literal_of_through front ['\\', '"'] rest hpart
  have hsame : front ++ (['\\', '"'] ++ rest) = text := by simp [htext]
  rw [hsame] at hliteral
  have hpos : 0 + byteLength (front ++ ['\\']) - 1 = byteLength front := by
    simp [show Char.utf8Size '\\' = 1 by decide]
  rw [hpos]
  exact ⟨literal, hliteral, hstart, hstop⟩

/-- In a text that nests its single quotes they open expression strings inside literals. -/
theorem exists_literal_of_mem_single (hn : Context.outside.nests text = true) (h : pos ∈ (lex text).single.toList) :
    ∃ literal ∈ (lex text).literals.toList, literal.start ≤ pos ∧ pos + 1 ≤ literal.stop := by
  rw [single_lex] at h
  obtain ⟨before, c, rest, rfl, hopens, rfl⟩ := mem_marks.mp h
  simp only [Context.opensSingle, Bool.and_eq_true, Bool.or_eq_true, beq_iff_eq] at hopens
  obtain ⟨hcontext, rfl⟩ := hopens
  obtain ⟨-, hrest⟩ := Context.nests_append.mp hn
  have hliteral := hcontext.resolve_left fun ho => (Context.nests_cons.mp hrest).1 ho rfl
  have hpart : (Context.outside.read before).Through (· ≠ .outside) ['\''] := by
    rw [hliteral]
    decide
  rw [Nat.zero_add]
  exact @exists_literal_of_through before ['\''] rest hpart

end QuoteMap

/-! ## Documents -/

/-- Of a document the quote map records the opening quotes of the string tokens as the strings and their contents
    as the literals, in order; what opens an expression string lies in one of them. -/
theorem lex_document {pieces : List JsonPiece} (h : IsDocument pieces) :
    let map := QuoteMap.lex (JsonPiece.write pieces)
    let tokens := JsonPiece.stringTokens 0 pieces
    map.strings.toList = tokens.map (·.pos) ∧ map.literals.toList = tokens.map StringToken.span ∧
      (∀ pos ∈ map.escaped.toList, ∃ token ∈ tokens, token.span.start ≤ pos ∧ pos + 2 ≤ token.span.stop) ∧
      ∀ pos ∈ map.single.toList, ∃ token ∈ tokens, token.span.start ≤ pos ∧ pos + 1 ≤ token.span.stop := by
  intro map tokens
  have hliterals : map.literals.toList = tokens.map StringToken.span := by
    rw [QuoteMap.literals_lex]
    exact JsonPiece.literalSpans_write h.formed h.uncommented
  have hnests := (Agrees.outside.skim (JsonPiece.skim_write h.formed h.uncommented)).1
  refine ⟨?_, hliterals, fun pos hpos => ?_, fun pos hpos => ?_⟩
  · rw [QuoteMap.strings_lex]
    exact JsonPiece.marks_write h.formed h.uncommented
  · obtain ⟨literal, hliteral, hbounds⟩ := QuoteMap.exists_literal_of_mem_escaped hpos
    obtain ⟨token, htoken, rfl⟩ := List.mem_map.mp (hliterals ▸ hliteral)
    exact ⟨token, htoken, hbounds⟩
  · obtain ⟨literal, hliteral, hbounds⟩ := QuoteMap.exists_literal_of_mem_single hnests hpos
    obtain ⟨token, htoken, rfl⟩ := List.mem_map.mp (hliterals ▸ hliteral)
    exact ⟨token, htoken, hbounds⟩

/-- An apostrophe and an escaped quote in a string, and a run of backslashes before its end. -/
theorem lex_document_nested :
    let pieces : List JsonPiece := [.token (.mark '{'), .token (.string ['e']), .token (.mark ':'), .blank ' ',
      .token (.string "d['a'] + \\\"\\u00e9\\\\\\\" \\\\".toList), .token (.mark '}')]
    let map := QuoteMap.lex (JsonPiece.write pieces)
    let tokens := JsonPiece.stringTokens 0 pieces
    IsDocument pieces ∧ tokens.map (·.pos) = [1, 6] ∧ map.escaped.toList = [16] ∧ map.single.toList = [9] ∧
      map.strings.toList = tokens.map (·.pos) ∧ map.literals.toList = tokens.map StringToken.span ∧
      (∀ pos ∈ map.escaped.toList, ∃ token ∈ tokens, token.span.start ≤ pos ∧ pos + 2 ≤ token.span.stop) ∧
      ∀ pos ∈ map.single.toList, ∃ token ∈ tokens, token.span.start ≤ pos ∧ pos + 1 ≤ token.span.stop := by
  intro pieces map tokens
  have hdocument : IsDocument pieces := ⟨by decide, by decide, .object (.lastMember .string)⟩
  exact ⟨hdocument, by decide, by decide +kernel, by decide +kernel, lex_document hdocument⟩

end FieldRemap
