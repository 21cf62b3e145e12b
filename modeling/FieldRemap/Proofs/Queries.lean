/-
  FieldRemap.Proofs.Queries — asking a quote map is asking its lists.

  An opener is listed at the character it is about: a double quote, the backslash before one, or
  a single quote (`QuoteMap.Records`). So no position is in two of the lists, each of them
  ascends, and the literals ascend with a delimiter between any two (`QuoteMap.Ordered`). That
  is all the searches by halving need: whatever the text and the position, they answer what a
  look through the lists answers (`QuoteMap.queries_exact`), also where a literal is empty or the
  text ends in one.
-/

import FieldRemap.Proofs.QuoteMap

namespace FieldRemap

namespace QuoteMap

/-- The lists hold the places where a literal or an expression string opens, and no others. -/
structure Records (text : List Char) (map : QuoteMap) : Prop where
  strings : ∀ pos, pos ∈ map.strings.toList ↔ ∃ before after, text = before ++ '"' :: after ∧
    Context.outside.read before = .outside ∧ pos = byteLength before
  escaped : ∀ pos, pos ∈ map.escaped.toList ↔ ∃ before after, text = before ++ '\\' :: '"' :: after ∧
    Context.outside.read before = .literal .code false ∧ pos = byteLength before
  single : ∀ pos, pos ∈ map.single.toList ↔ ∃ before after, text = before ++ '\'' :: after ∧
    (Context.outside.read before = .outside ∨ Context.outside.read before = .literal .code false) ∧
      pos = byteLength before

/-- Each list ascends, no position is in two of them, and between two literals there is a delimiter. -/
structure Ordered (map : QuoteMap) : Prop where
  strings : map.strings.toList.Pairwise (· < ·)
  escaped : map.escaped.toList.Pairwise (· < ·)
  single : map.single.toList.Pairwise (· < ·)
  strings_escaped : map.strings.toList.Disjoint map.escaped.toList
  strings_single : map.strings.toList.Disjoint map.single.toList
  escaped_single : map.escaped.toList.Disjoint map.single.toList
  literals : map.literals.toList.Pairwise (fun a b => a.stop < b.start)
  spans : ∀ span ∈ map.literals.toList, span.start ≤ span.stop

/-! ## The queries of a map that is in order -/

namespace Ordered

variable {map : QuoteMap} {pos : Nat}

theorem opensString_iff (h : map.Ordered) : map.opensString pos = true ↔ pos ∈ map.strings.toList :=
  ascendingMem_iff h.strings

theorem opensEscaped_iff (h : map.Ordered) : map.opensEscaped pos = true ↔ pos ∈ map.escaped.toList :=
  ascendingMem_iff h.escaped

theorem opensSingle_iff (h : map.Ordered) : map.opensSingle pos = true ↔ pos ∈ map.single.toList :=
  ascendingMem_iff h.single

theorem inLiteral_iff_exists (h : map.Ordered) :
    map.inLiteral pos = true ↔ ∃ span ∈ map.literals.toList, span.contains pos = true :=
  inLiteral_iff h.literals h.spans

end Ordered

/-! ## What is listed -/

theorem records_lex (text : List Char) : (lex text).Records text where
  strings pos := by
    rw [strings_lex, mem_marks]
    constructor
    · rintro ⟨before, c, after, rfl, htest, rfl⟩
      obtain ⟨hcontext, rfl⟩ : Context.outside.read before = .outside ∧ c = '"' := by
        simpa [Context.opensString] using htest
      exact ⟨before, after, rfl, hcontext, Nat.zero_add _⟩
    · rintro ⟨before, after, rfl, hcontext, rfl⟩
      exact ⟨before, '"', after, rfl, by simp [Context.opensString, hcontext], (Nat.zero_add _).symm⟩
  escaped _ := mem_escaped_lex
  single pos := by
    rw [single_lex, mem_marks]
    constructor
    · rintro ⟨before, c, after, rfl, htest, rfl⟩
      obtain ⟨hcontext, rfl⟩ : (Context.outside.read before = .outside ∨
          Context.outside.read before = .literal .code false) ∧ c = '\'' := by
        simpa [Context.opensSingle] using htest
      exact ⟨before, after, rfl, hcontext, Nat.zero_add _⟩
    · rintro ⟨before, after, rfl, hcontext, rfl⟩
      exact ⟨before, '\'', after, rfl, by simpa [Context.opensSingle] using hcontext, (Nat.zero_add _).symm⟩

/-- Lists of positions of different characters have none in common. -/
theorem disjoint_of_standsAt {text : List Char} {c d : Char} {xs ys : List Nat} (hne : c ≠ d)
    (hxs : ∀ pos ∈ xs, StandsAt text c pos) (hys : ∀ pos ∈ ys, StandsAt text d pos) : xs.Disjoint ys :=
  fun pos hx hy => hne ((hxs pos hx).unique (hys pos hy))

namespace Records

variable {text : List Char} {map : QuoteMap} {pos : Nat}

theorem standsAt_string (h : map.Records text) (hpos : pos ∈ map.strings.toList) : StandsAt text '"' pos := by
  obtain ⟨before, after, htext, -, rfl⟩ := (h.strings pos).mp hpos
  exact ⟨before, after, htext, rfl⟩

theorem standsAt_escaped (h : map.Records text) (hpos : pos ∈ map.escaped.toList) : StandsAt text '\\' pos := by
  obtain ⟨before, after, htext, -, rfl⟩ := (h.escaped pos).mp hpos
  exact ⟨before, _, htext, rfl⟩

theorem standsAt_single (h : map.Records text) (hpos : pos ∈ map.single.toList) : StandsAt text '\'' pos := by
  obtain ⟨before, after, htext, -, rfl⟩ := (h.single pos).mp hpos
  exact ⟨before, after, htext, rfl⟩

end Records

theorem ordered_lex (text : List Char) : (lex text).Ordered where
  strings := by
    rw [strings_lex]
    exact pairwise_marks ..
  escaped := pairwise_escaped text
  single := by
    rw [single_lex]
    exact pairwise_marks ..
  strings_escaped := disjoint_of_standsAt (by decide) (fun _ => (records_lex text).standsAt_string)
    fun _ => (records_lex text).standsAt_escaped
  strings_single := disjoint_of_standsAt (by decide) (fun _ => (records_lex text).standsAt_string)
    fun _ => (records_lex text).standsAt_single
  escaped_single := disjoint_of_standsAt (by decide) (fun _ => (records_lex text).standsAt_escaped)
    fun _ => (records_lex text).standsAt_single
  literals := by
    rw [literals_lex]
    exact pairwise_literalSpans (Nat.le_refl 0)
  spans span hspan := by
    rw [literals_lex] at hspan
    exact (literalSpans_bounds (Nat.le_refl 0) span hspan).2.2.1

/-- For every text the lists are in order, and every query answers membership, whatever the position: an opener is
    reported exactly where one is recorded, and a position is in a literal exactly when some recorded range
    contains it. -/
theorem queries_exact (text : List Char) :
    (lex text).Records text ∧ (lex text).Ordered ∧ ∀ pos,
      ((lex text).opensString pos = true ↔ pos ∈ (lex text).strings.toList) ∧
      ((lex text).opensEscaped pos = true ↔ pos ∈ (lex text).escaped.toList) ∧
      ((lex text).opensSingle pos = true ↔ pos ∈ (lex text).single.toList) ∧
      ((lex text).inLiteral pos = true ↔ ∃ span ∈ (lex text).literals.toList, span.contains pos = true) := by
  have hordered := ordered_lex text
  exact ⟨records_lex text, hordered, fun _ => ⟨hordered.opensString_iff, hordered.opensEscaped_iff,
    hordered.opensSingle_iff, hordered.inLiteral_iff_exists⟩⟩

/-- A text that ends in an empty literal records it, and no position is in it. -/
example : (lex ['"']).literals = #[⟨1, 1⟩] ∧ (lex ['"']).inLiteral 1 = false := by decide

end QuoteMap

end FieldRemap
