/-
  FieldRemap.Proofs.Places — the search is exact.

  `IsWritten` says how a name stands in a text in each of the five forms, character by character, and
  `IsPlace` adds that the quotes of the text let the form open there. In a text that nests its
  single quotes the search reports these places and no others, in ascending order and each once
  (`findReferences_exact`).

  The search is greedy: behind a match it goes on at the next character, or behind the name if the
  match was bounded. Nothing is lost by that, since no place of a name opens inside another place
  of that name (`Mention.stop_le_first`).
-/

import FieldRemap.Proofs.Search

namespace FieldRemap

/-- The name is written in a form: what opens it, what is written, and what stands behind that. -/
inductive IsWritten (name : List Char) : Form → List Char → List Char → List Char → Prop
  | string (rest : List Char) : IsWritten name .string ['"'] (encodeName name) ('"' :: rest)
  | escaped (rest : List Char) :
      IsWritten name .escaped ['\\', '"'] (encodeName (encodeName name)) ('\\' :: '"' :: rest)
  | single (rest : List Char) : IsWritten name .single ['\''] (encodeName (escapeSingle name)) ('\'' :: rest)
  | bracket (rest : List Char) : (∀ c ∈ name, c ∉ ['[', ']', '\'', '"', '\\']) →
      IsWritten name .bracket ['['] (encodeName name) (']' :: rest)
  | accessor (rest : List Char) : isIdentifier name = true →
      (∀ c behind, rest = c :: behind → isWord c = false ∧ c ≠ '$') → IsWritten name .accessor ['.'] name rest

/-- The reference is a place of the text where the name is written, and the quotes let its form open there. -/
def IsPlace (name text : List Char) (r : Reference) : Prop :=
  ∃ before opener written rest, text = before ++ (opener ++ (written ++ rest)) ∧
    IsWritten name r.form opener written rest ∧
    r.form.isBounded (QuoteMap.lex text) (byteLength before) = true ∧
    r.span = ⟨byteLength before + byteLength opener, byteLength before + byteLength opener + byteLength written⟩

/-! ## What is written, form by form -/

theorem endsAccessor_iff {rest : List Char} :
    Form.endsAccessor rest = true ↔ ∀ c behind, rest = c :: behind → isWord c = false ∧ c ≠ '$' := by
  cases rest with
  | nil => simp [Form.endsAccessor]
  | cons c behind => simp [Form.endsAccessor]

/-- A name is spelled where it stands between the delimiters of its form, and the form admits it. -/
theorem isWritten_iff {name opener written behind : List Char} {form : Form} :
    IsWritten name form opener written behind ↔ form.admits name = true ∧ opener = form.opener ∧
      written = form.write name ∧
        ∃ rest, behind = form.closer ++ rest ∧ (form = .accessor → Form.endsAccessor rest = true) := by
  constructor
  · intro h
    cases h with
    | string rest | escaped rest | single rest => exact ⟨rfl, rfl, rfl, rest, rfl, fun h => by cases h⟩
    | bracket rest hbare => exact ⟨isBareKey_iff.mpr hbare, rfl, rfl, rest, rfl, fun h => by cases h⟩
    | accessor _ hname hends => exact ⟨hname, rfl, rfl, behind, rfl, fun _ => endsAccessor_iff.mpr hends⟩
  · intro h
    obtain ⟨hadmits, rfl, rfl, rest, rfl, hends⟩ := h
    cases form with
    | string => exact .string rest
    | escaped => exact .escaped rest
    | single => exact .single rest
    | bracket => exact .bracket rest (isBareKey_iff.mp hadmits)
    | accessor => exact .accessor rest hadmits (endsAccessor_iff.mp (hends rfl))

/-- The places of a name are its mentions. -/
theorem isPlace_iff_mention {name text : List Char} (hn : Context.outside.nests text = true) (hne : name ≠ [])
    {r : Reference} : IsPlace name text r ↔ ∃ m : Mention .outside text, m.name = name ∧ m.reference = r := by
  constructor
  · intro h
    obtain ⟨before, opener, written, behind, rfl, hwritten, hbounded, hspan⟩ := h
    obtain ⟨span, form⟩ := r
    obtain ⟨hadmits, rfl, rfl, rest, rfl, hends⟩ := isWritten_iff.mp hwritten
    have htext : before ++ (form.opener ++ (form.write name ++ (form.closer ++ rest))) =
        before ++ (form.wrap name ++ rest) := by
      simp [Form.wrap]
    rw [htext] at hn hbounded ⊢
    exact ⟨⟨before, form, name, rest, rfl, (Mention.isBounded_wrap hn).symm.trans hbounded, hadmits, hends, hne⟩,
      rfl, congrArg (Reference.mk · form) hspan.symm⟩
  · intro h
    obtain ⟨⟨before, form, name, rest, rfl, hfits, hadmits, hends, _⟩, rfl, rfl⟩ := h
    refine ⟨before, form.opener, form.write name, form.closer ++ rest, by simp [Form.wrap], ?_, ?_, rfl⟩
    · exact isWritten_iff.mpr ⟨hadmits, rfl, rfl, rest, rfl, hends⟩
    · exact (Mention.isBounded_wrap hn).trans hfits

/-! ## The search -/

theorem nodup_findReferences {name text : List Char} (hn : Context.outside.nests text = true) :
    (findReferences name (QuoteMap.lex text) text).Nodup := by
  refine (pairwise_findReferences name (QuoteMap.lex text) text).imp_of_mem ?_
  rintro a b ha - hab rfl
  obtain ⟨m, -, rfl⟩ := (mem_findReferences hn).mp ha
  have := m.start_lt_stop
  simp only [Mention.reference] at hab
  omega

/-- The search for a name reports the places where it is written, all of them, in ascending order
    and each once. -/
theorem findReferences_exact {name text : List Char} (hn : Context.outside.nests text = true) (hne : name ≠ []) :
    (∀ r, r ∈ findReferences name (QuoteMap.lex text) text ↔ IsPlace name text r) ∧
      (findReferences name (QuoteMap.lex text) text).Pairwise (fun a b => a.span.stop < b.span.start) ∧
      (findReferences name (QuoteMap.lex text) text).Nodup := by
  refine ⟨fun r => ?_, pairwise_findReferences name (QuoteMap.lex text) text, nodup_findReferences hn⟩
  rw [mem_findReferences hn, isPlace_iff_mention hn hne]

/-- The name in every form, some of them sharing a delimiter with a place that is not bounded. -/
theorem findReferences_exact_shared :
    let text := "a.a \"a\"a\"a\" \"datum.a + datum[a]['a'] + \\\"a\\\"a\\\"\" .a".toList
    Context.outside.nests text = true ∧ ['a'] ≠ [] ∧
      (∀ r, r ∈ findReferences ['a'] (QuoteMap.lex text) text ↔ IsPlace ['a'] text r) ∧
      (findReferences ['a'] (QuoteMap.lex text) text).map (·.form) =
        [.string, .string, .accessor, .bracket, .single, .escaped] := by
  intro text
  have hn : Context.outside.nests text = true := by decide
  have hne : ['a'] ≠ [] := by decide
  exact ⟨hn, hne, (findReferences_exact hn hne).1, by decide +kernel⟩

end FieldRemap
