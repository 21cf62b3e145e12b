/-
  FieldRemap.Proofs.Overlap — references whose spans meet, in any text.

  The span of a reference tells its form and its name (`eq_of_span_eq`): the forms end their openers
  in different characters, but for the two double quotes, and where one of these may open the other
  may not. References to names of token characters do not overlap at all (`eq_or_apart_of_isTokenChar`):
  such a name is a run of token characters that delimiters bound on both sides.
-/

import FieldRemap.Proofs.Tokenization
import FieldRemap.Proofs.Whole

namespace FieldRemap

variable {text name name' : List Char} {r r' : Reference}

/-! ## References of one span -/

/-- What stands before a name tells the form, or it ends in a double quote behind a backslash. -/
theorem Form.eq_of_append_opener {form form' : Form} {before before' : List Char}
    (h : before ++ form.opener = before' ++ form'.opener) : form = form' ∨
      (form = .escaped ∧ form' = .string ∧ before' = before ++ ['\\']) ∨
      (form' = .escaped ∧ form = .string ∧ before = before' ++ ['\\']) := by
  -- read from the right the openers differ in their first character, but for the double quotes
  have hreverse := congrArg List.reverse h
  cases form <;> cases form' <;> simp only [opener, List.reverse_append, List.reverse_cons, List.reverse_nil,
    List.nil_append, List.cons_append, List.cons.injEq, Char.reduceEq, false_and, true_and] at hreverse
  case string.escaped => exact .inr (.inr ⟨rfl, rfl, List.reverse_inj.mp (by simpa using hreverse)⟩)
  case escaped.string => exact .inr (.inl ⟨rfl, rfl, List.reverse_inj.mp (by simpa using hreverse.symm)⟩)
  all_goals exact .inl rfl

/-- Behind the backslash of an escaped quote that may open no string opens. -/
theorem Form.not_isBounded_string {before rest : List Char}
    (hescaped : Form.isBounded .escaped (QuoteMap.lex (before ++ '\\' :: '"' :: rest)) (byteLength before) = true) :
    ¬ Form.isBounded .string (QuoteMap.lex (before ++ '\\' :: '"' :: rest)) (byteLength (before ++ ['\\'])) = true := by
  intro hstring
  have hcontext := (QuoteMap.opensEscaped_lex before rest).mp hescaped
  have htext : before ++ '\\' :: '"' :: rest = (before ++ ['\\']) ++ '"' :: rest := by simp
  rw [htext] at hstring
  have hopens := (QuoteMap.opensString_lex (before ++ ['\\']) rest '"').symm.trans hstring
  rw [Context.read_append, hcontext] at hopens
  cases hopens

/-- Where a double quote is found to open a reference of one form it opens none of the other. -/
theorem IsFound.form_eq {before before' content content' rest rest' : List Char}
    (h : IsFound text r before content rest) (h' : IsFound text r' before' content' rest')
    (hstart : r.span.start = r'.span.start) : r.form = r'.form ∧ before = before' := by
  have hfront : before ++ r.form.opener = before' ++ r'.form.opener := by
    refine @eq_of_byteLength_eq _ _ text ?_ ?_ ?_
    · exact ⟨content ++ (r.form.closer ++ rest), by simp [h.text_eq]⟩
    · exact ⟨content' ++ (r'.form.closer ++ rest'), by simp [h'.text_eq]⟩
    · rw [byteLength_append, byteLength_append]
      simpa [h.span_eq, h'.span_eq] using hstart
  -- the same quotes of the text, read as an escaped one and as the opener of a string
  have apart {r r' : Reference} {before content content' rest rest' : List Char}
      (h : IsFound text r before content rest) (h' : IsFound text r' (before ++ ['\\']) content' rest')
      (hform : r.form = .escaped) (hform' : r'.form = .string) : False := by
    have htext := h.text_eq
    have hescaped := h.isBounded
    have hstring := h'.isBounded
    rw [htext, hform] at hescaped
    rw [htext, hform, hform'] at hstring
    exact Form.not_isBounded_string hescaped hstring
  rcases Form.eq_of_append_opener hfront with hform | ⟨hform, hform', rfl⟩ | ⟨hform', hform, rfl⟩
  · rw [hform] at hfront
    exact ⟨hform, List.append_cancel_right hfront⟩
  · exact (apart h h' hform hform').elim
  · exact (apart h' h hform' hform).elim

/-- References of one span are one, and to one name. -/
theorem eq_of_span_eq (hr : r ∈ findReferences name (QuoteMap.lex text) text)
    (hr' : r' ∈ findReferences name' (QuoteMap.lex text) text) (h : r.span = r'.span) : r = r' ∧ name = name' := by
  obtain ⟨-, before, rest, hfound⟩ := exists_isFound hr
  obtain ⟨-, before', rest', hfound'⟩ := exists_isFound hr'
  obtain ⟨hform, rfl⟩ := hfound.form_eq hfound' (congrArg Span.start h)
  obtain ⟨span, form⟩ := r
  obtain ⟨span', form'⟩ := r'
  obtain rfl : span = span' := h
  obtain rfl : form = form' := hform
  exact ⟨rfl, Form.write_inj (hfound.unique hfound').2⟩

/-! ## Names of token characters -/

/-- The span is a run of token characters, with none before it and none behind it. -/
def IsTokenRun (text : List Char) (span : Span) : Prop :=
  ∃ front run back, text = front ++ (run ++ back) ∧
    span = ⟨byteLength front, byteLength front + byteLength run⟩ ∧ run ≠ [] ∧ (∀ c ∈ run, isTokenChar c = true) ∧
      (∀ c ∈ front.getLast?, isTokenChar c = false) ∧ Stops back

/-- The run a text starts with is as long as token characters stand there. -/
theorem takeWhile_isTokenChar {run back : List Char} (hrun : ∀ c ∈ run, isTokenChar c = true) (hback : Stops back) :
    (run ++ back).takeWhile isTokenChar = run := by
  rw [List.takeWhile_append_of_pos hrun]
  cases back with
  | nil => simp
  | cons c back => simp [hback c back rfl]

/-- Of two runs the one that starts first ends before the other starts. -/
theorem IsTokenRun.eq_or_lt {a b : Span} (ha : IsTokenRun text a) (hb : IsTokenRun text b) (hle : a.start ≤ b.start) :
    a = b ∨ a.stop < b.start := by
  obtain ⟨front, run, back, htext, rfl, -, hrun, -, hback⟩ := ha
  obtain ⟨front', run', back', htext', rfl, -, hrun', hlast, hback'⟩ := hb
  obtain ⟨d, rfl⟩ := prefix_of_byteLength_le ⟨_, htext.symm⟩ ⟨_, htext'.symm⟩ hle
  have hd : run ++ back = d ++ (run' ++ back') := by
    rw [htext, List.append_assoc] at htext'
    exact List.append_cancel_left htext'
  rcases List.eq_nil_or_concat d with rfl | ⟨d, c, rfl⟩
  · left
    have hsame := congrArg (List.takeWhile isTokenChar) hd
    rw [List.nil_append, takeWhile_isTokenChar hrun hback, takeWhile_isTokenChar hrun' hback'] at hsame
    rw [hsame, List.append_nil]
  · right
    rw [List.concat_eq_append] at hlast hd ⊢
    have hc : isTokenChar c = false := hlast c (by simp)
    have hrun : run <+: d := by
      rw [← takeWhile_isTokenChar hrun hback, hd, List.append_assoc, List.takeWhile_append]
      split
      · simp [hc]
      · exact List.takeWhile_prefix _
    have := byteLength_le_of_isPrefix hrun
    have := c.utf8Size_pos
    simp only [byteLength_append, byteLength_cons, byteLength_nil]
    omega

theorem isTokenRun_of_mem (hname : ∀ c ∈ name, isTokenChar c = true)
    (hr : r ∈ findReferences name (QuoteMap.lex text) text) : IsTokenRun text r.span := by
  have hne : name ≠ [] := by
    rintro rfl
    cases hr
  obtain ⟨-, before, rest, hfound, hends⟩ := exists_isFound_ends hr
  have hspan := hfound.span_eq
  have htext := hfound.text_eq
  rw [r.form.write_of_isTokenChar hname] at hspan htext
  refine ⟨before ++ r.form.opener, name, r.form.closer ++ rest, by simp [htext], ?_, hne, hname, fun c hc => ?_,
    Form.stops_closer hends⟩
  · rw [hspan, byteLength_append]
  · rw [List.getLast?_append_of_ne_nil _ r.form.opener_ne_nil] at hc
    exact Form.not_isTokenChar_of_mem_opener (List.mem_of_getLast? hc)

/-- References to names of token characters are one, or a delimiter stands between them. -/
theorem eq_or_apart_of_isTokenChar (hname : ∀ c ∈ name, isTokenChar c = true)
    (hname' : ∀ c ∈ name', isTokenChar c = true) (hr : r ∈ findReferences name (QuoteMap.lex text) text)
    (hr' : r' ∈ findReferences name' (QuoteMap.lex text) text) :
    (r = r' ∧ name = name') ∨ r.span.stop < r'.span.start ∨ r'.span.stop < r.span.start := by
  have hrun := isTokenRun_of_mem hname hr
  have hrun' := isTokenRun_of_mem hname' hr'
  rcases Nat.le_total r.span.start r'.span.start with hle | hle
  · exact (hrun.eq_or_lt hrun' hle).imp (eq_of_span_eq hr hr') .inl
  · exact (hrun'.eq_or_lt hrun hle).imp (fun h => eq_of_span_eq hr hr' h.symm) .inr

end FieldRemap
