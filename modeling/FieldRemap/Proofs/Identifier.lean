/-
  FieldRemap.Proofs.Identifier — where an accessor is part of a longer identifier.

  An accessor ends where no character of a word follows, and its name is made of the characters of
  an identifier. A stray character goes on with an identifier and is part of no word: a number that
  is no decimal digit, such as `²`, or a character newer than the words know (`numeric_of_isStray`).
  What the search finds behind a dot is a whole identifier unless a stray character follows; then
  it is a proper part of one (`identifierRun_accessor_iff`), and there is such an accessor wherever
  an identifier is followed by a stray character in a literal (`mem_findReferences_of_isStray`).
-/

import FieldRemap.Proofs.Places
import FieldRemap.Proofs.Whole

namespace FieldRemap

/-- The longest run of identifier characters a text starts with. -/
def identifierRun (text : List Char) : List Char :=
  text.takeWhile isIdentifierPart

/-- A character that goes on with an identifier where a word has ended. -/
def isStray (c : Char) : Bool :=
  isIdentifierPart c && !(isWord c || c == '$')

/-! ## Stray characters -/

/-- A stray character is a number of another kind than the decimal digits, or a recent one. -/
theorem numeric_of_isStray {c : Char} (h : isStray c = true) :
    (isNumeric c = true ∧ isAlphabetic c = false ∧ isDecimalDigit c = false) ∨
      inRanges recentRanges c.toNat = true := by
  simp only [isStray, isIdentifierPart, isIdentifierStart, isWord, Bool.and_eq_true, Bool.not_eq_true',
    Bool.or_eq_false_iff, Bool.and_eq_false_iff, Bool.or_eq_true, Bool.not_eq_false'] at h
  obtain ⟨hpart, hword | hrecent, hdollar⟩ := h
  · obtain ⟨⟨⟨halphabetic, hdigit⟩, hunderscore⟩, -⟩ := hword
    have hnumeric := hpart.resolve_left (by simp [halphabetic, hunderscore, hdollar])
    exact .inl ⟨hnumeric, halphabetic, hdigit⟩
  · exact .inr hrecent

/-- Where an accessor may end, an identifier goes on with a stray character only. -/
theorem identifierRun_eq_nil_iff {rest : List Char} (h : Form.endsAccessor rest = true) :
    identifierRun rest = [] ↔ ∀ c ∈ rest.head?, isStray c = false := by
  cases rest with
  | nil => simp [identifierRun]
  | cons c rest =>
    have hc : (isWord c || c == '$') = false := by simpa [Form.endsAccessor] using h
    have hstray : isStray c = isIdentifierPart c := by rw [isStray, hc, Bool.not_false, Bool.and_true]
    simp [identifierRun, List.takeWhile_cons, hstray]

/-- A text that starts with an identifier goes on with it as far as the rest does. -/
theorem identifierRun_append {name rest : List Char} (h : isIdentifier name = true) :
    identifierRun (name ++ rest) = name ++ identifierRun rest :=
  List.takeWhile_append_of_pos fun _ hc => Form.isIdentifierPart_of_mem h hc

/-! ## Accessors -/

/-- An accessor stands behind a dot, and its name begins the longest run of identifier characters there. The
    name is all of the run unless a stray character follows. -/
theorem identifierRun_accessor_iff {name text : List Char} {r : Reference}
    (hr : r ∈ findReferences name (QuoteMap.lex text) text) (hform : r.form = .accessor) :
    ∃ before rest, text = before ++ '.' :: (name ++ rest) ∧
      r.span = ⟨byteLength before + 1, byteLength before + 1 + byteLength name⟩ ∧
      name <+: identifierRun (name ++ rest) ∧
      (identifierRun (name ++ rest) = name ↔ ∀ c ∈ rest.head?, isStray c = false) := by
  obtain ⟨span, form⟩ := r
  obtain rfl : form = .accessor := hform
  obtain ⟨hadmits, before, rest, hfound, hends⟩ := exists_isFound_ends hr
  have hrun : identifierRun (name ++ rest) = name ++ identifierRun rest := identifierRun_append hadmits
  refine ⟨before, rest, hfound.text_eq, hfound.span_eq, ?_, ?_⟩
  · rw [hrun]
    exact List.prefix_append _ _
  · rw [hrun, List.append_right_eq_self]
    exact identifierRun_eq_nil_iff (hends rfl)

/-- A name that goes on with a digit is passed over. -/
theorem identifierRun_accessor_iff_sales :
    let text := "[\"datum.Sales1 + datum.Sales\"]".toList
    let r : Reference := ⟨⟨23, 28⟩, .accessor⟩
    findReferences "Sales".toList (QuoteMap.lex text) text = [r] ∧
      ∃ before rest, text = before ++ '.' :: ("Sales".toList ++ rest) ∧
        r.span = ⟨byteLength before + 1, byteLength before + 1 + byteLength "Sales".toList⟩ ∧
        "Sales".toList <+: identifierRun ("Sales".toList ++ rest) ∧
        (identifierRun ("Sales".toList ++ rest) = "Sales".toList ↔ ∀ c ∈ rest.head?, isStray c = false) := by
  intro text r
  have hr : findReferences "Sales".toList (QuoteMap.lex text) text = [r] := by decide +kernel
  exact ⟨hr, identifierRun_accessor_iff (hr ▸ List.mem_singleton_self r) rfl⟩

/-- In a literal each part of an identifier that a stray character goes on with is found. -/
theorem mem_findReferences_of_isStray {name before rest : List Char} {c : Char}
    (hn : Context.outside.nests (before ++ '.' :: (name ++ c :: rest)) = true)
    (hin : (QuoteMap.lex (before ++ '.' :: (name ++ c :: rest))).inLiteral (byteLength before) = true)
    (hname : isIdentifier name = true) (hc : isStray c = true) :
    ⟨⟨byteLength before + 1, byteLength before + 1 + byteLength name⟩, .accessor⟩ ∈
      findReferences name (QuoteMap.lex (before ++ '.' :: (name ++ c :: rest)))
        (before ++ '.' :: (name ++ c :: rest)) := by
  have hne : name ≠ [] := by
    rintro rfl
    cases hname
  have hends : isWord c = false ∧ c ≠ '$' := by
    simp only [isStray, Bool.and_eq_true, Bool.not_eq_true', Bool.or_eq_false_iff, beq_eq_false_iff_ne] at hc
    exact hc.2
  have hwritten : IsWritten name .accessor ['.'] name (c :: rest) := by
    refine .accessor _ hname fun d behind hd => ?_
    obtain ⟨rfl, -⟩ := List.cons.inj hd
    exact hends
  rw [mem_findReferences hn, ← isPlace_iff_mention hn hne]
  exact ⟨before, ['.'], name, c :: rest, rfl, hwritten, hin, rfl⟩

/-- A superscript goes on with the identifier, and what stands before it is found. -/
theorem findReferences_superscript :
    let text := "[\"datum.Sales²\"]".toList
    ∃ before rest, text = before ++ '.' :: ("Sales".toList ++ rest) ∧
      findReferences "Sales".toList (QuoteMap.lex text) text =
        [⟨⟨byteLength before + 1, byteLength before + 1 + byteLength "Sales".toList⟩, .accessor⟩] ∧
      identifierRun ("Sales".toList ++ rest) = "Sales²".toList :=
  ⟨"[\"datum".toList, "²\"]".toList, by decide +kernel⟩

end FieldRemap
