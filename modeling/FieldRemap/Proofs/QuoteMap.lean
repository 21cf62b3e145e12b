/-
  FieldRemap.Proofs.QuoteMap — what a quote map records.

  The openers of a text are the places where a test of the context and the character holds
  (`marks`), and its literals start behind the character that opens one and end before the one
  that closes it (`literalSpans`). Both are listed in strictly ascending order, so the searches
  by halving are exact (`QuoteMap.opensString_lex` and its companions, `QuoteMap.inLiteral_lex`),
  and where a text nests its single quotes a form is bounded by the quote map exactly when it
  fits the context there (`Form.isBounded_lex`).
-/

import FieldRemap.Proofs.Bisect
import FieldRemap.Proofs.Context
import FieldRemap.Proofs.Span
import FieldRemap.Reference.Form

namespace FieldRemap

/-! ## Openers -/

def marks (test : Context → Char → Bool) (context : Context) (pos : Nat) : List Char → List Nat
  | [] => []
  | c :: rest =>
    let behind := marks test (context.next c) (pos + c.utf8Size) rest
    if test context c then pos :: behind else behind

theorem mem_marks {test : Context → Char → Bool} {context : Context} {pos x : Nat} {text : List Char} :
    x ∈ marks test context pos text ↔ ∃ before c after, text = before ++ c :: after ∧
      test (context.read before) c = true ∧ x = pos + byteLength before := by
  induction text generalizing context pos with
  | nil => simp [marks]
  | cons d text ih =>
    have hbehind : x ∈ marks test (context.next d) (pos + d.utf8Size) text ↔ ∃ before c after,
        d :: text = (d :: before) ++ c :: after ∧ test (context.read (d :: before)) c = true ∧
          x = pos + byteLength (d :: before) := by
      rw [ih]
      simp [Nat.add_assoc]
    have hcases : x ∈ marks test context pos (d :: text) ↔
        (test context d = true ∧ x = pos) ∨ x ∈ marks test (context.next d) (pos + d.utf8Size) text := by
      by_cases h : test context d = true <;> simp [marks, h]
    rw [hcases, hbehind]
    constructor
    · intro h'
      rcases h' with ⟨ht, rfl⟩ | ⟨before, c, after, he, ht, hx⟩
      · exact ⟨[], d, text, rfl, ht, rfl⟩
      · exact ⟨d :: before, c, after, he, ht, hx⟩
    · intro h'
      obtain ⟨before, c, after, he, ht, hx⟩ := h'
      cases before with
      | nil =>
        obtain ⟨rfl, rfl⟩ := List.cons.inj he
        exact .inl ⟨ht, hx⟩
      | cons e before =>
        obtain ⟨rfl, -⟩ := List.cons.inj he
        exact .inr ⟨before, c, after, he, ht, hx⟩

theorem pairwise_marks (test : Context → Char → Bool) (context : Context) (pos : Nat) (text : List Char) :
    (marks test context pos text).Pairwise (· < ·) := by
  induction text generalizing context pos with
  | nil => exact .nil
  | cons c text ih =>
    simp only [marks]
    split
    · refine List.pairwise_cons.mpr ⟨fun x hx => ?_, ih _ _⟩
      obtain ⟨before, _, _, _, _, rfl⟩ := mem_marks.mp hx
      have := c.utf8Size_pos
      omega
    · exact ih _ _

theorem marks_append (test : Context → Char → Bool) (context : Context) (pos : Nat) (a b : List Char) :
    marks test context pos (a ++ b) =
      marks test context pos a ++ marks test (context.read a) (pos + byteLength a) b := by
  induction a generalizing context pos with
  | nil => rfl
  | cons c a ih =>
    simp only [List.cons_append, marks, ih, Context.read_cons, byteLength_cons, Nat.add_assoc]
    split <;> rfl

/-- At a place of the text the test decides. -/
theorem mem_marks_at {test : Context → Char → Bool} {context : Context} {before after : List Char} {c : Char} :
    byteLength before ∈ marks test context 0 (before ++ c :: after) ↔ test (context.read before) c = true := by
  rw [mem_marks]
  constructor
  · intro h
    obtain ⟨before', c', after', he, ht, hx⟩ := h
    have hb : before = before' :=
      eq_of_byteLength_eq (List.prefix_append before (c :: after)) (he ▸ List.prefix_append _ _) (by omega)
    subst hb
    obtain ⟨rfl, -⟩ := List.cons.inj (List.append_cancel_left he)
    exact ht
  · intro ht
    exact ⟨before, c, after, rfl, ht, by omega⟩

/-! ## Literals -/

/-- The contents of the literals of a text that starts at `pos`, in the literal that starts at
    `opened` if it starts in one. -/
def literalSpans (context : Context) (pos opened : Nat) : List Char → List Span
  | [] => if context.isInside then [⟨opened, pos⟩] else []
  | c :: rest =>
    let behind := literalSpans (context.next c) (pos + c.utf8Size)
      (if context = .outside then pos + c.utf8Size else opened) rest
    if context.closes c then ⟨opened, pos⟩ :: behind else behind

theorem isInside_iff {context : Context} : context.isInside = true ↔ context ≠ .outside := by
  cases context <;> simp [Context.isInside]

theorem closes_iff {context : Context} {c : Char} :
    context.closes c = true ↔ context ≠ .outside ∧ context.next c = .outside := by
  simp [Context.closes, isInside_iff]

theorem literalSpans_bounds {context : Context} {pos opened : Nat} {text : List Char} (h : opened ≤ pos) :
    ∀ span ∈ literalSpans context pos opened text, (context = .outside → pos < span.start) ∧
      opened ≤ span.start ∧ span.start ≤ span.stop ∧ pos ≤ span.stop := by
  induction text generalizing context pos opened with
  | nil =>
    intro span hs
    by_cases hi : context = .outside
    · simp [literalSpans, hi, Context.isInside] at hs
    · simp only [literalSpans, isInside_iff.mpr hi, if_true, List.mem_singleton] at hs
      subst hs
      exact ⟨fun ho => absurd ho hi, Nat.le_refl _, h, Nat.le_refl _⟩
  | cons c text ih =>
    intro span hs
    have hc := c.utf8Size_pos
    have hbehind : ∀ span ∈ literalSpans (context.next c) (pos + c.utf8Size)
        (if context = .outside then pos + c.utf8Size else opened) text,
        (context = .outside → pos < span.start) ∧ opened ≤ span.start ∧ span.start ≤ span.stop ∧
          pos ≤ span.stop := by
      intro span hs
      by_cases ho : context = .outside
      · rw [if_pos ho] at hs
        obtain ⟨-, h2, h3, h4⟩ := ih (Nat.le_refl _) span hs
        exact ⟨fun _ => by omega, by omega, h3, by omega⟩
      · rw [if_neg ho] at hs
        obtain ⟨-, h2, h3, h4⟩ := ih (by omega) span hs
        exact ⟨fun h => absurd h ho, h2, h3, by omega⟩
    simp only [literalSpans] at hs
    split at hs
    · next hcl =>
      rcases List.mem_cons.mp hs with rfl | hs
      · exact ⟨fun ho => absurd ho (closes_iff.mp hcl).1, Nat.le_refl _, h, Nat.le_refl _⟩
      · exact hbehind span hs
    · exact hbehind span hs

theorem pairwise_literalSpans {context : Context} {pos opened : Nat} {text : List Char} (h : opened ≤ pos) :
    (literalSpans context pos opened text).Pairwise (fun a b => a.stop < b.start) := by
  induction text generalizing context pos opened with
  | nil => simp only [literalSpans]; split <;> simp
  | cons c text ih =>
    have hopened : (if context = .outside then pos + c.utf8Size else opened) ≤ pos + c.utf8Size := by
      split <;> omega
    simp only [literalSpans]
    split
    · next hcl =>
      refine List.pairwise_cons.mpr ⟨fun span hs => ?_, ih hopened⟩
      have := (literalSpans_bounds hopened span hs).1 (closes_iff.mp hcl).2
      simp only; omega
    · exact ih hopened

/-- A literal that is open has its span. -/
theorem exists_literalSpan {context : Context} {pos opened : Nat} {text : List Char} (hi : context ≠ .outside)
    (h : opened ≤ pos) : ∃ span ∈ literalSpans context pos opened text, span.start = opened ∧ pos ≤ span.stop := by
  induction text generalizing context pos with
  | nil => exact ⟨⟨opened, pos⟩, by simp [literalSpans, isInside_iff.mpr hi], rfl, Nat.le_refl _⟩
  | cons c text ih =>
    simp only [literalSpans, if_neg hi]
    by_cases hcl : context.closes c = true
    · exact ⟨⟨opened, pos⟩, by simp [hcl], rfl, Nat.le_refl _⟩
    · rw [if_neg hcl]
      have hn : context.next c ≠ .outside := fun hn => hcl (closes_iff.mpr ⟨hi, hn⟩)
      obtain ⟨span, hs, h1, h2⟩ := ih hn (Nat.le_add_right_of_le h)
      exact ⟨span, hs, h1, by omega⟩

theorem contains_iff {span : Span}
    {pos : Nat} : span.contains pos = true ↔ span.start ≤ pos ∧ pos < span.stop := by
  simp [Span.contains]

/-- A place lies in a literal when its context does and its character does not close it. -/
theorem exists_literalSpan_contains {context : Context} {pos opened : Nat} {before after : List Char} {c : Char}
    (h : opened ≤ pos) :
    (∃ span ∈ literalSpans context pos opened (before ++ c :: after), span.contains (pos + byteLength before) = true) ↔
      context.read before ≠ .outside ∧ (context.read before).next c ≠ .outside := by
  induction before generalizing context pos opened with
  | nil =>
    have hc := c.utf8Size_pos
    simp only [List.nil_append, byteLength_nil, Nat.add_zero, Context.read_nil]
    by_cases ho : context = .outside
    · refine iff_of_false ?_ (fun hr => hr.1 ho)
      intro h'
      obtain ⟨span, hs, hcon⟩ := h'
      have hlt := (literalSpans_bounds h span hs).1 ho
      have hle := (contains_iff.mp hcon).1
      omega
    · rw [literalSpans]
      by_cases hn : context.next c = .outside
      · simp only [hn, ne_eq, not_true_eq_false, and_false, iff_false, if_neg ho,
          closes_iff.mpr ⟨ho, hn⟩, if_true, List.mem_cons, not_exists, not_and, contains_iff]
        intro span h'
        rcases h' with rfl | hs
        · simp
        · have hlt := (literalSpans_bounds (by omega) span hs).1 rfl
          omega
      · have hcl : ¬ context.closes c = true := fun hcl => hn (closes_iff.mp hcl).2
        simp only [ne_eq, ho, hn, not_false_eq_true, and_self, iff_true, if_neg hcl, if_false]
        obtain ⟨span, hs, h1, h2⟩ :=
          @exists_literalSpan (context.next c) (pos + c.utf8Size) opened after hn (by omega)
        exact ⟨span, hs, contains_iff.mpr ⟨by omega, by omega⟩⟩
  | cons d before ih =>
    have hd := d.utf8Size_pos
    have hopened : (if context = .outside then pos + d.utf8Size else opened) ≤ pos + d.utf8Size := by
      split <;> omega
    rw [Context.read_cons, ← ih hopened, byteLength_cons, ← Nat.add_assoc, List.cons_append, literalSpans]
    split
    · -- the literal closed here ends before the place
      constructor
      · intro h'
        obtain ⟨span, hs, hcon⟩ := h'
        rcases List.mem_cons.mp hs with rfl | hs
        · have := contains_iff.mp hcon; simp only at this; omega
        · exact ⟨span, hs, hcon⟩
      · intro h'
        obtain ⟨span, hs, hcon⟩ := h'
        exact ⟨span, List.mem_cons_of_mem _ hs, hcon⟩
    · exact Iff.rfl

/-! ## The map of a text -/

namespace Lexer

theorem note_strings (lexer : Lexer) (c : Char) : (lexer.note c).strings =
    if lexer.context.opensString c then lexer.map.strings.push lexer.pos else lexer.map.strings := by
  unfold note
  repeat' split
  all_goals rfl

theorem note_escaped (lexer : Lexer) (c : Char) : (lexer.note c).escaped =
    if lexer.context.opensEscaped c then lexer.map.escaped.push (lexer.pos - 1) else lexer.map.escaped := by
  unfold note
  repeat' split
  all_goals rfl

theorem note_single (lexer : Lexer) (c : Char) : (lexer.note c).single =
    if lexer.context.opensSingle c then lexer.map.single.push lexer.pos else lexer.map.single := by
  unfold note
  repeat' split
  all_goals rfl

theorem note_literals (lexer : Lexer) (c : Char) : (lexer.note c).literals =
    if lexer.context.closes c then lexer.map.literals.push ⟨lexer.opened, lexer.pos⟩ else lexer.map.literals := by
  unfold note
  repeat' split
  all_goals rfl

theorem strings_foldl (lexer : Lexer) (text : List Char) : (text.foldl read lexer).map.strings.toList =
    lexer.map.strings.toList ++ marks Context.opensString lexer.context lexer.pos text := by
  induction text generalizing lexer with
  | nil => simp [marks]
  | cons c text ih =>
    rw [List.foldl_cons, ih]
    by_cases h : lexer.context.opensString c = true <;> simp [read, note_strings, marks, h]

theorem escaped_foldl (lexer : Lexer) (text : List Char) : (text.foldl read lexer).map.escaped.toList =
    lexer.map.escaped.toList ++ (marks Context.opensEscaped lexer.context lexer.pos text).map (· - 1) := by
  induction text generalizing lexer with
  | nil => simp [marks]
  | cons c text ih =>
    rw [List.foldl_cons, ih]
    by_cases h : lexer.context.opensEscaped c = true <;> simp [read, note_escaped, marks, h]

theorem single_foldl (lexer : Lexer) (text : List Char) : (text.foldl read lexer).map.single.toList =
    lexer.map.single.toList ++ marks Context.opensSingle lexer.context lexer.pos text := by
  induction text generalizing lexer with
  | nil => simp [marks]
  | cons c text ih =>
    rw [List.foldl_cons, ih]
    by_cases h : lexer.context.opensSingle c = true <;> simp [read, note_single, marks, h]

theorem literals_foldl (lexer : Lexer) (text : List Char) : (text.foldl read lexer).finish.literals.toList =
    lexer.map.literals.toList ++ literalSpans lexer.context lexer.pos lexer.opened text := by
  induction text generalizing lexer with
  | nil => by_cases h : lexer.context.isInside = true <;> simp [finish, literalSpans, h]
  | cons c text ih =>
    rw [List.foldl_cons, ih]
    by_cases h : lexer.context.closes c = true <;> simp [read, note_literals, literalSpans, h]

end Lexer

namespace QuoteMap

theorem strings_lex (text : List Char) :
    (lex text).strings.toList = marks Context.opensString .outside 0 text := by
  have : (lex text).strings = (text.foldl Lexer.read {}).map.strings := by unfold lex Lexer.finish; split <;> rfl
  rw [this, Lexer.strings_foldl]
  rfl

theorem escaped_lex (text : List Char) :
    (lex text).escaped.toList = (marks Context.opensEscaped .outside 0 text).map (· - 1) := by
  have : (lex text).escaped = (text.foldl Lexer.read {}).map.escaped := by unfold lex Lexer.finish; split <;> rfl
  rw [this, Lexer.escaped_foldl]
  rfl

theorem single_lex (text : List Char) :
    (lex text).single.toList = marks Context.opensSingle .outside 0 text := by
  have : (lex text).single = (text.foldl Lexer.read {}).map.single := by unfold lex Lexer.finish; split <;> rfl
  rw [this, Lexer.single_foldl]
  rfl

theorem literals_lex (text : List Char) : (lex text).literals.toList = literalSpans .outside 0 0 text := by
  rw [lex, Lexer.literals_foldl]
  rfl

theorem opensString_lex (before after : List Char) (c : Char) :
    (lex (before ++ c :: after)).opensString (byteLength before) =
    (Context.outside.read before).opensString c := by
  rw [Bool.eq_iff_iff, opensString, ascendingMem_iff (by rw [strings_lex]; exact pairwise_marks ..), strings_lex]
  exact mem_marks_at

theorem opensSingle_lex (before after : List Char) (c : Char) :
    (lex (before ++ c :: after)).opensSingle (byteLength before) =
    (Context.outside.read before).opensSingle c := by
  rw [Bool.eq_iff_iff, opensSingle, ascendingMem_iff (by rw [single_lex]; exact pairwise_marks ..), single_lex]
  exact mem_marks_at

end QuoteMap

/-- Only a backslash in a double-quoted literal leads behind one. -/
theorem next_eq_backslash {context : Context} {c : Char} {inner : ExpressionContext} {escaped : Bool} :
    context.next c = .backslash inner escaped ↔ c = '\\' ∧ context = .literal inner escaped := by
  constructor
  · intro h
    match context with
    | .outside =>
      simp only [Context.next] at h
      (repeat' split at h) <;> cases h
    | .literal i e =>
      simp only [Context.next] at h
      split at h
      · cases h
      · split at h
        · next hc => cases h; exact ⟨hc, rfl⟩
        · split at h <;> cases h
    | .backslash i true => cases h
    | .backslash i false =>
      simp only [Context.next] at h
      (repeat' split at h) <;> cases h
    | .single =>
      simp only [Context.next] at h
      (repeat' split at h) <;> cases h
    | .singleBackslash => cases h
  · intro h'
    obtain ⟨rfl, rfl⟩ := h'
    rfl

/-- Behind an escaped opener's backslash stands a context of a text that is not empty. -/
theorem of_opensEscaped {before : List Char} {c : Char}
    (h : (Context.outside.read before).opensEscaped c = true) :
    c = '"' ∧ ∃ front, before = front ++ ['\\'] ∧ Context.outside.read front = .literal .code false := by
  simp only [Context.opensEscaped, Bool.and_eq_true, beq_iff_eq] at h
  refine ⟨h.2, ?_⟩
  rcases List.eq_nil_or_concat before with rfl | ⟨front, d, rfl⟩
  · cases h.1
  · obtain ⟨hd, hfront⟩ := next_eq_backslash.mp (show (Context.outside.read front).next d = _ by simpa using h.1)
    exact ⟨front, by simp [hd], hfront⟩

namespace QuoteMap

theorem pairwise_escaped (text : List Char) : (lex text).escaped.toList.Pairwise (· < ·) := by
  rw [escaped_lex, List.pairwise_map]
  refine (pairwise_marks Context.opensEscaped .outside 0 text).imp_of_mem fun {a b} ha _ hab => ?_
  obtain ⟨before, c, after, _, ht, rfl⟩ := mem_marks.mp ha
  obtain ⟨_, front, rfl, _⟩ := of_opensEscaped ht
  have : Char.utf8Size '\\' = 1 := by decide
  simp only [byteLength_append, byteLength_cons] at hab ⊢
  omega

/-- An escaped opener is recorded at its backslash. -/
theorem mem_escaped_lex {text : List Char} {pos : Nat} :
    pos ∈ (lex text).escaped.toList ↔ ∃ before after, text = before ++ '\\' :: '"' :: after ∧
      Context.outside.read before = .literal .code false ∧ pos = byteLength before := by
  have hsize : Char.utf8Size '\\' = 1 := by decide
  rw [escaped_lex, List.mem_map]
  constructor
  · intro h'
    obtain ⟨x, hx, rfl⟩ := h'
    obtain ⟨before, c, after, rfl, htest, rfl⟩ := mem_marks.mp hx
    obtain ⟨rfl, front, rfl, hfront⟩ := of_opensEscaped htest
    exact ⟨front, after, by simp, hfront, by simp [hsize]⟩
  · intro h'
    obtain ⟨before, after, rfl, hcontext, rfl⟩ := h'
    refine ⟨byteLength (before ++ ['\\']), mem_marks.mpr ⟨before ++ ['\\'], '"', after, by simp, ?_, by simp⟩,
      by simp [hsize]⟩
    simp [hcontext, Context.opensEscaped, Context.next]

theorem opensEscaped_lex (before after : List Char) :
    (lex (before ++ '\\' :: '"' :: after)).opensEscaped (byteLength before) = true ↔
      Context.outside.read before = .literal .code false := by
  rw [opensEscaped, ascendingMem_iff (pairwise_escaped _), mem_escaped_lex]
  constructor
  · intro h'
    obtain ⟨before', after', htext, hcontext, hpos⟩ := h'
    obtain rfl : before = before' :=
      eq_of_byteLength_eq (List.prefix_append before _) (htext ▸ List.prefix_append before' _) hpos
    exact hcontext
  · intro h
    exact ⟨before, after, rfl, h, rfl⟩

theorem inLiteral_iff {map : QuoteMap} {pos : Nat}
    (hsep : map.literals.toList.Pairwise (fun a b => a.stop < b.start))
    (hle : ∀ span ∈ map.literals.toList, span.start ≤ span.stop) :
    map.inLiteral pos = true ↔ ∃ span ∈ map.literals.toList, span.contains pos = true := by
  have hget := List.pairwise_iff_getElem.mp hsep
  simp only [Array.length_toList, Array.getElem_toList] at hget
  have hle : ∀ i (hi : i < map.literals.size), map.literals[i].start ≤ map.literals[i].stop :=
    fun i hi => hle _ (Array.getElem_mem_toList hi)
  have hmono : ∀ i j, i < j → j < map.literals.size →
      map.literals[j]?.any (·.start ≤ pos) = true → map.literals[i]?.any (·.start ≤ pos) = true := by
    intro i j hij hj hjx
    have hi : i < map.literals.size := by omega
    have h1 := hget i j hi hj hij
    have h2 := hle i hi
    simp only [Array.getElem?_eq_getElem hi, Array.getElem?_eq_getElem hj, Option.any_some,
      decide_eq_true_eq] at hjx ⊢
    omega
  obtain ⟨k, hk, hs⟩ := exists_splitsAt hmono
  simp only [inLiteral, partitionPoint_eq ⟨hk, hs⟩, Bool.and_eq_true, decide_eq_true_eq]
  have hstart : ∀ i (hi : i < map.literals.size), map.literals[i].start ≤ pos ↔ i < k := by
    intro i hi
    have := hs i hi
    simpa only [Array.getElem?_eq_getElem hi, Option.any_some, decide_eq_true_eq] using this
  constructor
  · intro h
    obtain ⟨hpos, hany⟩ := h
    have hlt : k - 1 < map.literals.size := by omega
    rw [Array.getElem?_eq_getElem hlt] at hany
    exact ⟨map.literals[k - 1], Array.getElem_mem_toList hlt, by simpa using hany⟩
  · intro h
    obtain ⟨span, hm, hcon⟩ := h
    obtain ⟨i, hi, rfl⟩ := List.mem_iff_getElem.mp hm
    simp only [Array.length_toList, Array.getElem_toList] at hi hcon
    obtain ⟨h1, h2⟩ := contains_iff.mp hcon
    have hik := (hstart i hi).mp h1
    -- a later literal that starts before the position would start behind this one's end
    have hlast : i = k - 1 := by
      by_cases hlt : i < k - 1
      · have hk1 : k - 1 < map.literals.size := by omega
        have h3 := (hstart (k - 1) hk1).mpr (by omega)
        have h4 := hget i (k - 1) hi hk1 hlt
        omega
      · omega
    subst hlast
    exact ⟨by omega, by rw [Array.getElem?_eq_getElem hi]; simpa using hcon⟩

theorem inLiteral_lex (before after : List Char) (c : Char) :
    (lex (before ++ c :: after)).inLiteral (byteLength before) = true ↔
      Context.outside.read before ≠ .outside ∧ (Context.outside.read before).next c ≠ .outside := by
  have hbounds := fun span hs =>
    (@literalSpans_bounds .outside 0 0 (before ++ c :: after) (Nat.le_refl 0) span hs).2.2.1
  rw [inLiteral_iff (by rw [literals_lex]; exact pairwise_literalSpans (Nat.le_refl 0))
    (by rw [literals_lex]; exact hbounds),
    literals_lex]
  simpa using @exists_literalSpan_contains .outside 0 0 before after c (Nat.le_refl 0)

end QuoteMap

/-! ## Forms -/

namespace Form

def fits (form : Form) (context : Context) : Bool :=
  match form with
  | .string => context == .outside
  | .escaped | .single => context == .literal .code false
  | .bracket | .accessor => context.inString

theorem next_delimiter {context : Context} {c : Char} (h : context.inString = true) (hq : c ≠ '"')
    (hb : c ≠ '\\')
    (hs : c ≠ '\'') : context.next c = .literal context.inner false := by
  match context, h with
  | .literal i e, _ =>
    cases e <;> cases i <;> simp [Context.next, Context.inner, ExpressionContext.afterPlain, hq, hb, hs]
  | .backslash i true, _ => rfl
  | .backslash i false, _ => simp [Context.next, Context.inner, hq, hb]

/-- Where a form may open in any text: also single quotes outside every literal, and a bracket or an accessor
    between those. -/
def MayOpen (form : Form) (context : Context) : Prop :=
  form.fits context = true ∨ (form = .single ∧ context = .outside) ∨
    ((form = .bracket ∨ form = .accessor) ∧ (context = .single ∨ context = .singleBackslash))

theorem isBounded_iff {form : Form} {before rest : List Char} :
    form.isBounded (QuoteMap.lex (before ++ (form.opener ++ rest))) (byteLength before) = true ↔
      form.MayOpen (Context.outside.read before) := by
  have delimiter {c : Char} (hq : c ≠ '"') (hb : c ≠ '\\') (hs : c ≠ '\'') :
      (QuoteMap.lex (before ++ c :: rest)).inLiteral (byteLength before) = true ↔
        (Context.outside.read before).inString = true ∨
          Context.outside.read before = .single ∨ Context.outside.read before = .singleBackslash := by
    rw [QuoteMap.inLiteral_lex]
    generalize Context.outside.read before = context
    constructor
    · rintro ⟨hcontext, -⟩
      cases context with
      | outside => exact absurd rfl hcontext
      | literal | backslash => exact .inl rfl
      | single => exact .inr (.inl rfl)
      | singleBackslash => exact .inr (.inr rfl)
    · rintro (h | rfl | rfl)
      · rw [next_delimiter h hq hb hs]
        exact ⟨Context.ne_outside_of_inString h, Context.noConfusion⟩
      · simp [Context.next, hb, hs]
      · simp [Context.next]
  cases form with
  | string =>
    have := QuoteMap.opensString_lex before rest '"'
    simpa [MayOpen, opener, isBounded, fits, Context.opensString] using Bool.eq_iff_iff.mp this
  | escaped => simpa [MayOpen, opener, isBounded, fits] using QuoteMap.opensEscaped_lex before rest
  | single =>
    have := QuoteMap.opensSingle_lex before rest '\''
    simpa [MayOpen, opener, isBounded, fits, Context.opensSingle, or_comm] using Bool.eq_iff_iff.mp this
  | bracket | accessor => simpa [MayOpen, opener, isBounded, fits] using delimiter (by decide) (by decide) (by decide)

/-- Outside every literal and in a double-quoted one a form may open where it fits, but for single quotes outside. -/
theorem MayOpen.fits {form : Form} {context : Context} (h : form.MayOpen context)
    (hcontext : context = .outside ∨ context.inString = true) (hsingle : form = .single → context ≠ .outside) :
    form.fits context = true := by
  rcases h with hf | ⟨rfl, ho⟩ | ⟨-, rfl | rfl⟩
  · exact hf
  · exact absurd ho (hsingle rfl)
  · exact absurd hcontext (by decide)
  · exact absurd hcontext (by decide)

/-- Where a text nests its single quotes the quote map bounds a form exactly where it fits. -/
theorem isBounded_lex (form : Form) {before rest : List Char}
    (hn : Context.outside.nests (before ++ (form.opener ++ rest)) = true) :
    form.isBounded (QuoteMap.lex (before ++ (form.opener ++ rest))) (byteLength before) =
      form.fits (Context.outside.read before) := by
  obtain ⟨hbefore, hopener⟩ := Context.nests_append.mp hn
  rw [Bool.eq_iff_iff, isBounded_iff]
  constructor
  · intro h
    refine h.fits (Context.inString_of_nests (.inl rfl) hbefore) ?_
    rintro rfl ho
    exact (Context.nests_cons.mp hopener).1 ho rfl
  · exact .inl

end Form

end FieldRemap
