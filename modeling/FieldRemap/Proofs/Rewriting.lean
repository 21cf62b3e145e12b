/-
  FieldRemap.Proofs.Rewriting — documents stay documents.

  A name is written so that it can stand in a JSON string, whatever it is, and a reference
  starts and ends between the escapes of the string it stands in. So a text with its references
  redirected skims to the same as before (`Woven.skim_target`): tokenizing or filling a document
  gives a document with the same pieces, in which only strings may hold something else
  (`isDocument_rewrite`), and the reader takes it for one (`Document.isRead_tokenize`,
  `Document.isRead_remap`).
-/

import FieldRemap.Proofs.Filling
import FieldRemap.Proofs.Skim

namespace FieldRemap

open Passage Retarget

/-! ## Names in strings -/

namespace StringPlace

variable {a b : List Char}

theorem read_append {place middle after : StringPlace} (ha : place.read a = some middle)
    (hb : middle.read b = some after) : place.read (a ++ b) = some after := by
  rw [read, List.foldlM_append]
  exact Option.bind_eq_some_iff.mpr ⟨middle, ha, hb⟩

theorem read_encodeChar (c : Char) : plain.read (encodeChar c) = some .plain := by
  have h := escaped_encodeChar c
  generalize encodeChar c = u at h
  cases h with
  | plain hq hb h => simp [read, next, hq, hb, Nat.not_lt.mpr h]
  | mark h => rcases h with rfl | rfl <;> rfl
  | letter k h =>
    have hletters : ∀ x ∈ controlLetters, plain.read ['\\', x.2] = some .plain := by decide
    exact hletters _ h
  | number h =>
    have hdigit : ∀ n < 16, (hexValue? (hexDigit n)).isSome = true := by decide
    have hhigh := hdigit (c.toNat / 16) (by omega)
    have hlow := hdigit (c.toNat % 16) (by omega)
    have hzero : (hexValue? '0').isSome = true := by decide
    simp [read, next, hhigh, hlow, hzero]

/-- A name as it is written in a string can stand there. -/
theorem read_encodeName (name : List Char) : plain.read (encodeName name) = some .plain := by
  induction name with
  | nil => rfl
  | cons c name ih => exact read_append (read_encodeChar c) ih

end StringPlace

namespace Form

variable {form : Form} {name : List Char}

theorem le_toNat_of_isIdentifierPart {c : Char} (h : isIdentifierPart c = true) : 32 ≤ c.toNat := by
  have hcontrol : ∀ n < 32, isIdentifierPart (Char.ofNat n) = false := by decide +kernel
  by_contra hlt
  have := hcontrol c.toNat (by omega)
  rw [Char.ofNat_toNat, h] at this
  cases this

/-- In every form a name is written as some text is in a string. -/
theorem exists_write_eq_encodeName (h : form.admits name = true) : ∃ text, form.write name = encodeName text := by
  cases form with
  | string | bracket => exact ⟨name, rfl⟩
  | escaped => exact ⟨encodeName name, rfl⟩
  | single => exact ⟨escapeSingle name, rfl⟩
  | accessor =>
    have part {c y : Char} (hc : c ∈ name) (hy : isIdentifierPart y = false) : c ≠ y :=
      ne_of_isIdentifierPart (isIdentifierPart_of_mem h hc) hy
    have hchars : ∀ c ∈ name, encodeChar c = [c] := fun c hc => encodeChar_of_ge (part hc (by decide))
      (part hc (by decide)) (le_toNat_of_isIdentifierPart (isIdentifierPart_of_mem h hc))
    refine ⟨name, ?_⟩
    rw [encodeName, List.flatMap_congr hchars]
    simp [write]

/-- Inside a string a redirected reference can stand where the one before could. -/
theorem read_rewrap_plain (hs : form ≠ .string) : StringPlace.plain.read (form.rewrap name) = some .plain := by
  by_cases ha : form.admits name = true
  · obtain ⟨text, hw⟩ := exists_write_eq_encodeName ha
    rw [rewrap, if_pos ha, wrap, hw]
    have hopener : StringPlace.plain.read form.opener = some .plain := by
      cases form <;> first | rfl | exact absurd rfl hs
    have hcloser : StringPlace.plain.read form.closer = some .plain := by
      cases form <;> first | rfl | exact absurd rfl hs
    exact StringPlace.read_append hopener (StringPlace.read_append (StringPlace.read_encodeName text) hcloser)
  · rw [rewrap, if_neg ha]
    exact StringPlace.read_append (a := ['[']) rfl (StringPlace.read_append (StringPlace.read_encodeName _) rfl)

/-- A reference inside a string opens between two escapes. -/
theorem place_eq_plain {place after : SkimPlace} {context : Context} {rest k : List Char} (hs : form ≠ .string)
    (h : Agrees place context) (hf : form.fits context = true)
    (hskim : skim place (form.opener ++ rest) = some (after, k)) : place = .inside .plain := by
  have opens {place : SkimPlace} {c : Char} {others : List Char} (hopener : form.opener = c :: others)
      (hskim : skim place (form.opener ++ rest) = some (after, k)) : place.next c ≠ none := by
    rw [hopener, List.cons_append, skim_cons] at hskim
    obtain ⟨_, _, _, hnext, _⟩ := hskim
    exact fun hnone => by rw [hnone] at hnext; cases hnext
  cases h with
  | plain => rfl
  | outside => cases form <;> first | exact absurd rfl hs | cases hf
  | digits =>
    -- no form opens with a hexadecimal digit
    cases form <;> exact absurd rfl (opens rfl hskim)
  | escape =>
    -- what fits behind a backslash does not open with what is escaped
    cases form with
    | string => exact absurd rfl hs
    | escaped | single => cases hf
    | bracket | accessor => exact absurd rfl (opens rfl hskim)

/-- Redirecting a reference does not change what its text skims to. -/
theorem skim_rewrap {place after : SkimPlace} {context : Context} {old k : List Char} (h : Agrees place context)
    (hf : form.fits context = true) (ha : form.admits old = true)
    (hskim : skim place (form.wrap old) = some (after, k)) : skim place (form.rewrap name) = some (after, k) := by
  by_cases hs : form = .string
  · subst hs
    have hplace : place = .outside := by
      rw [beq_iff_eq.mp hf] at h
      cases h
      rfl
    have hstring (name : List Char) : skim .outside (wrap .string name) = some (.outside, ['"', '"']) :=
      skim_string (beq_iff_eq.mpr (StringPlace.read_encodeName name))
    subst hplace
    rw [hstring] at hskim
    exact (hstring name).trans hskim
  · obtain rfl := place_eq_plain hs h hf hskim
    have hold : form.wrap old = form.rewrap old := (if_pos ha).symm
    rw [hold, skim_of_read (read_rewrap_plain hs)] at hskim
    rw [← hskim]
    exact skim_of_read (read_rewrap_plain hs)

end Form

/-! ## Redirected documents -/

/-- A text with its references redirected skims to what it skimmed to before. -/
theorem Woven.skim_target {tail : List Char} {context : Context} {ps : List Passage} (h : Woven tail context ps)
    {place after : SkimPlace} {kept : List Char} (ha : Agrees place context)
    (hskim : skim place (source tail ps) = some (after, kept)) : skim place (target tail ps) = some (after, kept) := by
  induction h generalizing place kept with
  | nil => exact hskim
  | @cons context p ps hfits hadmits _ _ _ ih =>
    obtain ⟨opened, lead, _, hlead, hrest, rfl⟩ := skim_append.mp hskim
    obtain ⟨closed, reference, rest, hwrap, hsource, rfl⟩ := skim_append.mp hrest
    have hopened := (ha.skim hlead).2
    have hclosed := (hopened.skim hwrap).2
    rw [Form.read_wrap hfits hadmits] at hclosed
    have hrewrap : skim opened (p.form.rewrap p.new) = some (closed, reference) :=
      Form.skim_rewrap hopened hfits hadmits hwrap
    exact skim_append_of_eq hlead (skim_append_of_eq hrewrap (ih hclosed hsource))

/-- A document with references redirected is a document of the same pieces, but for the contents of strings. -/
theorem IsDocument.redirect {pieces : List JsonPiece} (h : IsDocument pieces) (suffixes : List String)
    (renames : List (String × String)) :
    let text := JsonPiece.write pieces
    ∃ pieces', splice text (edits (gather (QuoteMap.lex text) text suffixes renames)) = JsonPiece.write pieces' ∧
      IsDocument pieces' ∧ pieces'.map JsonPiece.erase = pieces.map JsonPiece.erase := by
  intro text
  have hskim : skim .outside text = some (.outside, JsonPiece.write (pieces.map JsonPiece.erase)) :=
    JsonPiece.skim_write h.formed h.uncommented
  obtain ⟨ps, tail, hps⟩ := exists_redirected suffixes renames (Agrees.outside.skim hskim).1
  rw [← hps.source_eq] at hskim
  obtain ⟨pieces', hwrite, hformed, herase⟩ :=
    JsonPiece.exists_pieces_of_skim h.formed h.uncommented (hps.woven.skim_target .outside hskim)
  exact ⟨pieces', hps.splice_eq.trans hwrite.symm, h.of_erase hformed herase, herase⟩

theorem IsDocument.exists_tokenize {pieces : List JsonPiece} (h : IsDocument pieces) (request : TokenizationRequest)
    (hwrite : request.specText.toList = JsonPiece.write pieces) :
    ∃ pieces', (tokenize request).toList = JsonPiece.write pieces' ∧ IsDocument pieces' ∧
      pieces'.map JsonPiece.erase = pieces.map JsonPiece.erase := by
  obtain ⟨pieces', hpieces, hdocument⟩ := h.redirect
    (if request.isRemap then request.supplementaryReplacers.filterMap (·.suffix?) else [])
    request.trackedFields.renames
  refine ⟨pieces', ?_, hdocument⟩
  rw [tokenize, String.toList_ofList, Tokenize.edits_eq, hwrite, hpieces]

theorem IsDocument.exists_remap {pieces : List JsonPiece} (h : IsDocument pieces) (request : RemappingRequest)
    (hwrite : request.tokenizedSpecText.toList = JsonPiece.write pieces) :
    ∃ pieces', (remap request).toList = JsonPiece.write pieces' ∧ IsDocument pieces' ∧
      pieces'.map JsonPiece.erase = pieces.map JsonPiece.erase := by
  obtain ⟨pieces', hpieces, hdocument⟩ :=
    h.redirect (request.supplementaryReplacers.filterMap (·.suffix?)) request.renames
  refine ⟨pieces', ?_, hdocument⟩
  rw [remap, String.toList_ofList, Remap.edits_eq, hwrite, hpieces]

namespace Document

/-- A text that the reader takes for a document is one when it is tokenized, whatever the registry is. -/
theorem isRead_tokenize {request : TokenizationRequest} (h : IsRead request.specText) : IsRead (tokenize request) := by
  obtain ⟨pieces, hdocument, hwrite⟩ := exists_isDocument h
  obtain ⟨pieces', hpieces, hdocument', _⟩ := hdocument.exists_tokenize request hwrite
  exact isRead_of_isDocument hdocument' hpieces

/-- A text that the reader takes for a document is one when it is filled, whatever the slots are. -/
theorem isRead_remap {request : RemappingRequest} (h : IsRead request.tokenizedSpecText) : IsRead (remap request) := by
  obtain ⟨pieces, hdocument, hwrite⟩ := exists_isDocument h
  obtain ⟨pieces', hpieces, hdocument', _⟩ := hdocument.exists_remap request hwrite
  exact isRead_of_isDocument hdocument' hpieces

end Document

/-- Tokenizing a document, in either mode, and filling one, whatever the registry, the slots and the patterns are,
    gives a document of the same pieces, but for the contents of strings. -/
theorem isDocument_rewrite (specText : String) (pieces : List JsonPiece) (h : IsDocument pieces)
    (hwrite : specText.toList = JsonPiece.write pieces) :
    (∀ request : TokenizationRequest, request.specText = specText →
      ∃ pieces', (tokenize request).toList = JsonPiece.write pieces' ∧ IsDocument pieces' ∧
        pieces'.map JsonPiece.erase = pieces.map JsonPiece.erase) ∧
    (∀ request : RemappingRequest, request.tokenizedSpecText = specText →
      ∃ pieces', (remap request).toList = JsonPiece.write pieces' ∧ IsDocument pieces' ∧
        pieces'.map JsonPiece.erase = pieces.map JsonPiece.erase) := by
  constructor
  · rintro request rfl
    exact h.exists_tokenize request hwrite
  · rintro request rfl
    exact h.exists_remap request hwrite

/-- An object with a field in an expression. -/
theorem isDocument_rewrite_sales :
    let specText := "\x7b\"x\": \"datum.Sales\", \"y\": [1, null]\x7d"
    let pieces : List JsonPiece := [.token (.mark '{'), .token (.string ['x']), .token (.mark ':'), .blank ' ',
      .token (.string "datum.Sales".toList), .token (.mark ','), .blank ' ', .token (.string ['y']), .token (.mark ':'),
      .blank ' ', .token (.mark '['), .token (.number ['1']), .token (.mark ','), .blank ' ',
      .token (.word "null".toList), .token (.mark ']'), .token (.mark '}')]
    IsDocument pieces ∧ specText.toList = JsonPiece.write pieces ∧
      (∀ request : TokenizationRequest, request.specText = specText →
        ∃ pieces', (tokenize request).toList = JsonPiece.write pieces' ∧ IsDocument pieces' ∧
          pieces'.map JsonPiece.erase = pieces.map JsonPiece.erase) ∧
      (∀ request : RemappingRequest, request.tokenizedSpecText = specText →
        ∃ pieces', (remap request).toList = JsonPiece.write pieces' ∧ IsDocument pieces' ∧
          pieces'.map JsonPiece.erase = pieces.map JsonPiece.erase) := by
  intro specText pieces
  have hdocument : IsDocument pieces :=
    ⟨by decide, by decide, .object (.member .string (.lastMember (.array (.item .number (.lastItem .word)))))⟩
  have hwrite : specText.toList = JsonPiece.write pieces := by decide
  exact ⟨hdocument, hwrite, isDocument_rewrite specText pieces hdocument hwrite⟩

end FieldRemap
