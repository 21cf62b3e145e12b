/-
  FieldRemap.Proofs.Comments — references in a text with comments.

  Tokens and blanks are closed: read from outside every string they end there, and none of their
  single quotes stands outside (`Closed`). A comment need not be, as the quote map does not know
  it for one; an apostrophe in it opens a string. Where the strings that open in a comment are
  closed in it, each piece is read from outside again (`IsRestored`).

  A reference that opens in a closed part of a text ends in it (`Mention.exists_part`), and none
  that opens in a comment reaches over the start of a string, as a quote in a name is written
  behind a backslash (`IsRestored.fits_of_over`). So what is found outside the comments is what the
  other pieces refer to, each on its own (`IsRestored.mem_findReferences_iff`), and what is written
  in the comments makes no difference to it (`findReferences_blankOut`). An apostrophe that is not
  closed in its comment hides what follows (`findReferences_apostrophe`).
-/

import Mathlib.Data.List.Chain
import FieldRemap.Proofs.Parts
import FieldRemap.Proofs.Skim

namespace FieldRemap

def Reference.isOutside (spans : List Span) (reference : Reference) : Bool :=
  spans.all fun span => reference.span.stop ≤ span.start || span.stop ≤ reference.span.start

theorem Reference.isOutside_iff {spans : List Span} {r : Reference} :
    r.isOutside spans = true ↔ ∀ span ∈ spans, r.span.stop ≤ span.start ∨ span.stop ≤ r.span.start := by
  simp [isOutside]

/-! ## Pieces -/

theorem byteLength_replicate (n : Nat) : byteLength (List.replicate n ' ') = n := by
  induction n with
  | zero => rfl
  | succ n ih =>
    rw [List.replicate_succ, byteLength_cons, ih]
    exact Nat.add_comm 1 n

namespace JsonPiece

/-- Whether another piece may follow this one: only the end of its line follows a line comment. -/
def endsBefore (piece next : JsonPiece) : Bool :=
  match piece with
  | .line _ => next == .blank '\n'
  | _ => true

/-- Each line comment goes up to the end of its line. -/
def LinesEnd (pieces : List JsonPiece) : Prop :=
  pieces.IsChain fun piece next => piece.endsBefore next = true

/-- The pieces are well formed, and the strings that open in a comment are closed in it. A line comment with a
    single quote outside every string goes up to the end of its line. -/
structure IsRestored (pieces : List JsonPiece) : Prop where
  formed : ∀ piece ∈ pieces, piece.isFormed = true
  back : ∀ piece ∈ pieces, ∀ inside ∈ piece.comment?, Context.outside.read inside = .outside
  lines : Context.outside.nests (write pieces) = true ∨ LinesEnd pieces

/-- The reference is one to the name in a piece that is no comment. -/
def IsReference (name : List Char) (pieces : List JsonPiece) (r : Reference) : Prop :=
  ∃ front piece back, pieces = front ++ piece :: back ∧ piece.comment? = none ∧
    ∃ m : Mention .outside piece.text, m.name = name ∧ r = m.reference.shift (byteLength (write front))

variable {name before rest : List Char} {c : Char} {piece : JsonPiece} {pieces front back : List JsonPiece}
  {pos : Nat} {r : Reference}

theorem write_append (front back : List JsonPiece) : write (front ++ back) = write front ++ write back :=
  List.flatMap_append

theorem back_text (hformed : piece.isFormed = true)
    (hback : ∀ inside ∈ piece.comment?, Context.outside.read inside = .outside) :
    Context.outside.read piece.text = .outside := by
  cases piece with
  | blank | token => exact (closed_text hformed rfl).back
  | line inside => exact hback inside rfl
  | block inside =>
    have hinside : Context.outside.read ('/' :: '*' :: inside) = .outside := hback inside rfl
    rw [text, Context.read_append, hinside]
    rfl

theorem read_write (h : ∀ piece ∈ pieces, Context.outside.read piece.text = .outside) :
    Context.outside.read (write pieces) = .outside := by
  induction pieces with
  | nil => rfl
  | cons piece pieces ih =>
    obtain ⟨hpiece, h⟩ := List.forall_mem_cons.mp h
    rw [write_cons, Context.read_append, hpiece, ih h]

/-- Each character of a text stands in a piece. -/
theorem exists_piece (h : write pieces = before ++ c :: rest) :
    ∃ front piece back a b, pieces = front ++ piece :: back ∧ before = write front ++ a ∧
      piece.text = a ++ c :: b ∧ rest = b ++ write back := by
  induction pieces generalizing before with
  | nil => exact absurd h.symm (by simp [write])
  | cons piece pieces ih =>
    have behind {x : List Char} (hx : before = piece.text ++ x) (h : write pieces = x ++ c :: rest) :
        ∃ front piece' back a b, piece :: pieces = front ++ piece' :: back ∧ before = write front ++ a ∧
          piece'.text = a ++ c :: b ∧ rest = b ++ write back := by
      obtain ⟨front, piece', back, a, b, rfl, rfl, htext, hrest⟩ := ih h
      exact ⟨piece :: front, piece', back, a, b, rfl, by rw [hx, write_cons, List.append_assoc], htext, hrest⟩
    rcases List.append_eq_append_iff.mp h with ⟨x, hx, hwrite⟩ | ⟨x, hx, hwrite⟩
    · exact behind hx hwrite
    · cases x with
      | nil => exact @behind [] (by rw [hx, List.append_nil, List.append_nil]) hwrite.symm
      | cons d b =>
        obtain ⟨rfl, hrest⟩ := List.cons.inj hwrite
        exact ⟨[], piece, pieces, before, b, rfl, rfl, hx, hrest⟩

/-! ## Where strings start -/

theorem text_ne_nil (h : piece.isFormed = true) : piece.text ≠ [] := by
  cases piece with
  | token t =>
    obtain ⟨c, others, htext, -⟩ := JsonToken.exists_head h
    rw [text, htext]
    exact List.cons_ne_nil _ _
  | blank | line | block => exact List.cons_ne_nil _ _

/-- Only a line comment ends with a backslash. -/
theorem exists_line_of_backslash (h : piece.isFormed = true) {a : List Char} (htext : piece.text = a ++ ['\\']) :
    ∃ inside, piece = .line inside := by
  have hlast : '\\' ∈ piece.text := htext ▸ List.mem_append_right a List.mem_cons_self
  cases hcomment : piece.comment? with
  | none =>
    rcases string_or_not_quote h hcomment with ⟨content, rfl, -⟩ | ⟨-, hquote⟩
    · have := List.append_inj_right' (show ('"' :: content) ++ ['"'] = a ++ ['\\'] from htext) rfl
      cases this
    · exact absurd rfl (hquote _ hlast).2.2
  | some inside =>
    cases piece with
    | blank | token => cases hcomment
    | line inside => exact ⟨inside, rfl⟩
    | block inside =>
      have := List.append_inj_right' (show ('/' :: '*' :: inside ++ ['*']) ++ ['/'] = a ++ ['\\'] by
        rw [← htext]
        simp [text]) rfl
      cases this

theorem exists_line_of_write (h : ∀ piece ∈ pieces, piece.isFormed = true) {a : List Char}
    (hwrite : write pieces = a ++ ['\\']) : ∃ front inside, pieces = front ++ [.line inside] := by
  rcases List.eq_nil_or_concat pieces with rfl | ⟨front, piece, rfl⟩
  · exact absurd hwrite.symm (by simp [write])
  · have hpiece : piece.isFormed = true := h piece (by simp)
    have hsplit : a ++ ['\\'] = write front ++ piece.text := by
      rw [← hwrite, List.concat_eq_append, write_append]
      simp [write]
    obtain ⟨b, htext, -⟩ := prefix_of_concat_eq (text_ne_nil hpiece) hsplit
    obtain ⟨inside, rfl⟩ := exists_line_of_backslash hpiece htext
    exact ⟨front, inside, List.concat_eq_append⟩

/-- A piece with a mention in it is a string. -/
theorem exists_cons_of_mention (h : piece.isFormed = true) (hplain : piece.comment? = none)
    (m : Mention .outside piece.text) : ∃ rest, piece.text = '"' :: rest := by
  rcases string_or_not_quote h hplain with ⟨content, rfl, -⟩ | ⟨-, hquote⟩
  · exact ⟨content ++ ['"'], rfl⟩
  · have hbefore : Context.outside.read m.before = .outside :=
      (closed_of_not_quote fun c hc => ⟨(hquote c (m.before_isPrefix.mem hc)).1,
        (hquote c (m.before_isPrefix.mem hc)).2.1⟩).back
    have hfits := m.fits
    rw [hbefore] at hfits
    have hform : m.form = .string := by
      revert hfits
      cases m.form <;> decide
    have hopener : '"' ∈ piece.text := by
      rw [m.text_eq, hform]
      simp [Form.wrap, Form.opener]
    exact absurd rfl (hquote _ hopener).1

/-! ## References and comments -/

namespace IsRestored

theorem read_front (h : IsRestored (front ++ back)) : Context.outside.read (write front) = .outside :=
  read_write fun piece hpiece => back_text (h.formed piece (List.mem_append_left _ hpiece))
    (h.back piece (List.mem_append_left _ hpiece))

/-- A single quote outside every string opens none of which the start of a string is written inside: a backslash
    would have to stand before it, and only a line comment ends with one. -/
theorem not_written (h : IsRestored (front ++ piece :: back)) {name x w : List Char}
    (hfront : write front = before ++ '\'' :: x) (ho : Context.outside.read before = .outside)
    (hpiece : piece.text = '"' :: rest) : encodeName name ≠ x ++ '"' :: w := by
  intro hname
  rcases h.lines with hn | hlines
  · rw [write_append, hfront, List.append_assoc] at hn
    have hquote := (Context.nests_append.mp hn).2
    rw [ho] at hquote
    exact (Context.nests_cons.mp hquote).1 rfl rfl
  · obtain ⟨y, rfl⟩ := Form.exists_backslash_of_quote hname
    have hlast : write front = (before ++ '\'' :: y) ++ ['\\'] := by simp [hfront]
    obtain ⟨init, inside, rfl⟩ := exists_line_of_write (fun q hq => h.formed q (List.mem_append_left _ hq)) hlast
    rw [LinesEnd, List.append_assoc, List.singleton_append, List.isChain_append_cons_cons] at hlines
    obtain rfl : piece = .blank '\n' := by simpa [endsBefore] using hlines.2.1
    cases hpiece

/-- What may open before a mention of a piece, and is written over it, fits. -/
theorem fits_of_over (h : IsRestored (front ++ piece :: back)) (hplain : piece.comment? = none)
    (n : Mention .outside piece.text) {between z name : List Char} {form : Form}
    (hsplit : write front ++ n.before = before ++ between) (hbetween : between ≠ []) (hz : z ≠ [])
    (hover : n.before ++ z <+: piece.text ++ write back) (hname : form.opener ++ form.write name = between ++ z)
    (hadmits : form.admits name = true) (hmay : form.MayOpen (Context.outside.read before)) :
    form.fits (Context.outside.read before) = true := by
  have hformed := h.formed piece (List.mem_append_right front List.mem_cons_self)
  have hfront := h.read_front
  by_cases hin : write front <+: before
  · -- in the piece
    obtain ⟨x, rfl⟩ := hin
    have hinside : n.before = x ++ between := List.append_cancel_left (hsplit.trans (List.append_assoc ..))
    obtain ⟨c, opener, hopener⟩ := List.exists_cons_of_ne_nil form.opener_ne_nil
    obtain ⟨d, t, rfl⟩ := List.exists_cons_of_ne_nil hbetween
    rw [hopener] at hname
    obtain ⟨rfl, -⟩ := List.cons.inj hname
    have hnests := (closed_text hformed hplain).nests
    rw [n.text_eq, hinside, List.append_assoc] at hnests
    rw [Context.read_append, hfront] at hmay ⊢
    exact hmay.fits_of_nests hnests hopener
  · obtain ⟨x, hx⟩ := (List.prefix_or_prefix_of_prefix (List.prefix_append _ _)
      (hsplit ▸ List.prefix_append before between)).resolve_left hin
    have hbehind : between = x ++ n.before := by
      rw [← hx, List.append_assoc] at hsplit
      exact (List.append_cancel_left hsplit).symm
    have hxnil : x ≠ [] := by
      rintro rfl
      exact hin ⟨[], by rw [← hx, List.append_nil, List.append_nil]⟩
    rw [hbehind, List.append_assoc] at hname
    rcases hmay with hf | ⟨rfl, ho⟩ | ⟨hbare, hs⟩
    · exact hf
    · -- the quote that starts the piece would be written in the name
      obtain ⟨text, hpiece⟩ := exists_cons_of_mention hformed hplain n
      obtain ⟨d, y, rfl⟩ := List.exists_cons_of_ne_nil hxnil
      obtain ⟨rfl, hwritten⟩ := List.cons.inj hname
      obtain ⟨e, w, he⟩ := List.exists_cons_of_ne_nil (List.append_ne_nil_of_right_ne_nil n.before hz)
      rw [he, hpiece] at hover
      obtain ⟨rfl, -⟩ := List.cons_prefix_cons.mp hover
      rw [he] at hwritten
      exact absurd hwritten (h.not_written hx.symm ho hpiece)
    · -- between single quotes there is no place outside every string
      have hwrap : x <+: form.wrap name := by
        rw [Form.wrap, ← List.append_assoc, hname, List.append_assoc]
        exact List.prefix_append _ _
      refine absurd ?_ (Form.through_bare hbare hadmits (.inr hs) x hwrap)
      rw [← Context.read_append, hx]
      exact hfront

/-- What a piece refers to is found, with the comments before it or without. -/
theorem mem_findReferences (h : IsRestored pieces) (hr : IsReference name pieces r) :
    r ∈ findReferences name (QuoteMap.lex (write pieces)) (write pieces) := by
  obtain ⟨front, piece, back, rfl, hplain, n, rfl, rfl⟩ := hr
  have hformed := h.formed piece (List.mem_append_right front List.mem_cons_self)
  rw [write_append, write_cons]
  obtain ⟨m, hbefore, hname, href⟩ := Mention.exists_whole h.read_front (closed_text hformed hplain) n (write back)
  rw [← href, ← hname]
  refine m.reference_mem fun before between z form hsplit hbetween hz hover hwritten hadmits hmay => ?_
  rw [hbefore, List.append_assoc, List.prefix_append_right_inj] at hover
  exact h.fits_of_over hplain n (hbefore.symm.trans hsplit) hbetween hz hover hwritten hadmits hmay

/-- What is found opens in a comment, or is what another piece refers to. -/
theorem isReference_or_within (h : IsRestored pieces)
    (hr : r ∈ findReferences name (QuoteMap.lex (write pieces)) (write pieces)) :
    IsReference name pieces r ∨ ∃ front piece back, pieces = front ++ piece :: back ∧ piece.comment?.isSome = true ∧
      (∃ c ∈ r.form.opener, c ∈ piece.text) ∧ byteLength (write front) < r.span.start ∧
      r.span.start < byteLength (write front) + byteLength piece.text := by
  have hne : name ≠ [] := by
    rintro rfl
    cases hr
  obtain ⟨hadmits, before, rest, hfound, hends⟩ := exists_isFound_ends hr
  obtain ⟨c, opener, hopener⟩ := List.exists_cons_of_ne_nil r.form.opener_ne_nil
  have htext := hfound.text_eq
  have hmay := hfound.isBounded
  rw [htext, Form.isBounded_iff] at hmay
  rw [hopener, List.cons_append] at htext
  obtain ⟨front, piece, back, a, b, rfl, rfl, hpiece, hrest⟩ := exists_piece htext
  rw [Context.read_append, h.read_front] at hmay
  have hmem : piece ∈ front ++ piece :: back := List.mem_append_right front List.mem_cons_self
  cases hcomment : piece.comment? with
  | none =>
    left
    have hclosed := closed_text (h.formed piece hmem) hcomment
    have hfits := hmay.fits_of_nests (hpiece ▸ hclosed.nests) hopener
    obtain ⟨m, hbefore, hname, href⟩ : ∃ m : Mention .outside (write front ++ (piece.text ++ write back)),
        m.before = write front ++ a ∧ m.name = name ∧ m.reference = r := by
      rw [← write_cons, ← write_append]
      refine hfound.exists_mention hadmits hends hne ?_
      rw [Context.read_append, h.read_front]
      exact hfits
    obtain ⟨n, hn, hshift⟩ := m.exists_part h.read_front hclosed (by simp [Mention.first, hbefore]) (by
      have := c.utf8Size_pos
      simp only [Mention.first, hbefore, hpiece, byteLength_append, byteLength_cons]
      omega)
    exact ⟨front, piece, back, rfl, hcomment, n, hn.trans hname, href.symm.trans hshift⟩
  | some inside =>
    have hstart : r.span.start = byteLength (write front ++ a) + byteLength (c :: opener) := by
      rw [hfound.span_eq, hopener]
    have hc := c.utf8Size_pos
    refine .inr ⟨front, piece, back, rfl, hcomment ▸ rfl, ⟨c, by simp [hopener], by simp [hpiece]⟩, ?_, ?_⟩
    · simp only [byteLength_append, byteLength_cons] at hstart
      omega
    · -- the comment does not end in the opener
      by_contra hlt
      have hle : byteLength (c :: b) ≤ byteLength (c :: opener) := by
        simp only [hpiece, byteLength_append] at hstart hlt
        omega
      have hprefix : c :: b <+: c :: opener := prefix_of_byteLength_le ⟨write back, rfl⟩ ⟨_, congrArg (c :: ·) hrest⟩ hle
      refine hmay.read_ne_outside (hopener ▸ hprefix) ?_
      rw [← Context.read_append, ← hpiece]
      exact back_text (h.formed piece hmem) (h.back piece hmem)

end IsRestored

theorem le_start_of_mem_commentSpans {span : Span} (h : span ∈ commentSpans pos pieces) : pos ≤ span.start := by
  induction pieces generalizing pos with
  | nil => cases h
  | cons piece pieces ih =>
    have behind (h : span ∈ commentSpans (pos + byteLength piece.text) pieces) : pos ≤ span.start := by
      have := ih h
      omega
    rw [commentSpans] at h
    split at h
    · rcases List.mem_cons.mp h with rfl | h
      · exact Nat.le_refl _
      · exact behind h
    · exact behind h

/-- The comments among the pieces, with their places. -/
theorem mem_commentSpans (hcomment : piece.comment?.isSome = true) :
    ⟨pos + byteLength (write front), pos + byteLength (write front) + byteLength piece.text⟩ ∈
      commentSpans pos (front ++ piece :: back) := by
  induction front generalizing pos with
  | nil =>
    rw [List.nil_append, commentSpans, if_pos hcomment]
    exact List.mem_cons_self
  | cons q front ih =>
    have ih := @ih (pos + byteLength q.text)
    rw [List.cons_append, commentSpans, write_cons, byteLength_append, ← Nat.add_assoc]
    split
    · exact List.mem_cons_of_mem _ ih
    · exact ih

/-- The comments stand before another piece or behind it. -/
theorem apart_of_mem_commentSpans (hplain : piece.comment? = none) {span : Span}
    (h : span ∈ commentSpans pos (front ++ piece :: back)) :
    span.stop ≤ pos + byteLength (write front) ∨
      pos + byteLength (write front) + byteLength piece.text ≤ span.start := by
  induction front generalizing pos with
  | nil =>
    rw [List.nil_append, commentSpans, if_neg (by simp [hplain])] at h
    exact .inr (le_start_of_mem_commentSpans h)
  | cons q front ih =>
    rw [List.cons_append, commentSpans] at h
    rw [write_cons, byteLength_append, ← Nat.add_assoc]
    split at h
    · rcases List.mem_cons.mp h with rfl | h
      · exact .inl (Nat.le_add_right _ _)
      · exact ih h
    · exact ih h

namespace IsReference

theorem isOutside (h : IsReference name pieces r) : r.isOutside (commentSpans 0 pieces) = true := by
  obtain ⟨front, piece, back, rfl, hplain, m, -, rfl⟩ := h
  refine Reference.isOutside_iff.mpr fun span hspan => ?_
  have hstop := m.stop_le_last.trans m.last_le
  have hstart := m.start_lt_stop
  simp only [Reference.shift, Mention.reference]
  rcases apart_of_mem_commentSpans hplain hspan with hbefore | hbehind
  · omega
  · omega

end IsReference

/-- What is found outside the comments is what the other pieces refer to. -/
theorem IsRestored.mem_findReferences_iff (h : IsRestored pieces) :
    r ∈ findReferences name (QuoteMap.lex (write pieces)) (write pieces) ∧ r.isOutside (commentSpans 0 pieces) = true ↔
      IsReference name pieces r := by
  constructor
  · intro hr
    obtain ⟨hr, houtside⟩ := hr
    rcases h.isReference_or_within hr with hreference | ⟨front, piece, back, rfl, hcomment, -, hstart, hstop⟩
    · exact hreference
    · have hspan := @mem_commentSpans piece front back 0 hcomment
      have := Reference.isOutside_iff.mp houtside _ hspan
      have := (bounds_of_mem_findReferences hr).1
      simp only at *
      omega
  · intro hreference
    exact ⟨h.mem_findReferences hreference, hreference.isOutside⟩

/-! ## Blanked comments -/

theorem comment?_blankOut (piece : JsonPiece) : piece.blankOut.comment?.isSome = piece.comment?.isSome := by
  cases piece <;> rfl

theorem blankOut_eq_self (hplain : piece.comment? = none) : piece.blankOut = piece := by
  cases piece <;> first | rfl | cases hplain

theorem byteLength_blankOut (piece : JsonPiece) : byteLength piece.blankOut.text = byteLength piece.text := by
  cases piece <;> simp [blankOut, text, byteLength_replicate]

theorem byteLength_write_blankOut (pieces : List JsonPiece) :
    byteLength (write (pieces.map blankOut)) = byteLength (write pieces) := by
  induction pieces with
  | nil => rfl
  | cons piece pieces ih =>
    rw [List.map_cons, write_cons, write_cons, byteLength_append, byteLength_append, byteLength_blankOut, ih]

/-- A blanked comment holds nothing but its marks and blanks. -/
theorem mem_blankOut (hcomment : piece.comment?.isSome = true) : ∀ c ∈ piece.blankOut.text, c ∈ ['/', '*', ' '] := by
  intro c hc
  cases piece with
  | blank | token => cases hcomment
  | line | block =>
    simp only [blankOut, text, List.mem_cons, List.mem_append, List.mem_replicate] at hc ⊢
    grind

theorem isReference_blankOut_iff : IsReference name (pieces.map blankOut) r ↔ IsReference name pieces r := by
  constructor
  · rintro ⟨_, piece, _, heq, hplain, m, hname, rfl⟩
    obtain ⟨front, rest, rfl, rfl, hrest⟩ := List.map_eq_append_iff.mp heq
    obtain ⟨q, back, rfl, hq, rfl⟩ := List.map_eq_cons_iff.mp hrest
    have hnone : q.comment? = none := by
      rw [← Option.not_isSome_iff_eq_none, ← comment?_blankOut, hq, hplain]
      exact Bool.false_ne_true
    obtain rfl : q = piece := (blankOut_eq_self hnone).symm.trans hq
    exact ⟨front, q, back, rfl, hplain, m, hname, by rw [byteLength_write_blankOut]⟩
  · rintro ⟨front, piece, back, rfl, hplain, m, hname, rfl⟩
    refine ⟨front.map blankOut, piece, back.map blankOut, ?_, hplain, m, hname, ?_⟩
    · rw [List.map_append, List.map_cons, blankOut_eq_self hplain]
    · rw [byteLength_write_blankOut]

theorem closed_blankOut (hformed : piece.isFormed = true) : Closed piece.blankOut.text := by
  cases hcomment : piece.comment? with
  | none =>
    rw [blankOut_eq_self hcomment]
    exact closed_text hformed hcomment
  | some inside =>
    have hmarks : ∀ c ∈ ['/', '*', ' '], c ≠ '"' ∧ c ≠ '\'' := forall_mem_of_all (by decide)
    exact closed_of_not_quote fun c hc => hmarks c (mem_blankOut (hcomment ▸ rfl) c hc)

theorem closed_write (h : ∀ piece ∈ pieces, Closed piece.text) : Closed (write pieces) := by
  induction pieces with
  | nil => exact ⟨rfl, rfl⟩
  | cons piece pieces ih =>
    obtain ⟨hpiece, h⟩ := List.forall_mem_cons.mp h
    exact hpiece.append (ih h)

theorem isFormed_blankOut (h : piece.isFormed = true) : piece.blankOut.isFormed = true := by
  cases piece with
  | blank | token => exact h
  | line inside => simp [JsonPiece.blankOut, isFormed]
  | block inside =>
    have hmarks : ¬ ['*', '/'] <:+: List.replicate (byteLength inside) ' ' := by
      intro hinfix
      have := hinfix.mem (List.mem_cons_self : '*' ∈ ['*', '/'])
      simp at this
    simpa [JsonPiece.blankOut, isFormed, ← Bool.not_eq_true, occursIn_iff] using hmarks

theorem back_blankOut {inside : List Char} (h : inside ∈ piece.blankOut.comment?) :
    Context.outside.read inside = .outside := by
  have hblank (n : Nat) : Closed (List.replicate n ' ') := closed_of_not_quote fun c hc => by
    rw [(List.mem_replicate.mp hc).2]
    decide
  cases piece with
  | blank | token => cases h
  | line | block =>
    obtain rfl := Option.some.inj h
    exact (hblank _).back

theorem IsRestored.blankOut (h : IsRestored pieces) : IsRestored (pieces.map blankOut) where
  formed := List.forall_mem_map.mpr fun piece hpiece => isFormed_blankOut (h.formed piece hpiece)
  back := List.forall_mem_map.mpr fun _ _ _ => back_blankOut
  lines := .inl (closed_write (List.forall_mem_map.mpr fun piece hpiece => closed_blankOut (h.formed piece hpiece))).nests

end JsonPiece

open JsonPiece (write blankOut commentSpans LinesEnd) in
/-- Where the strings that open in a comment are closed in it, the references outside the comments are those found
    when blanks are written over what stands in the comments. Line comments end with their lines, unless no single
    quote stands outside every string. -/
theorem findReferences_blankOut (name : List Char) (pieces : List JsonPiece)
    (hformed : ∀ piece ∈ pieces, piece.isFormed = true)
    (hback : ∀ piece ∈ pieces, ∀ inside ∈ piece.comment?, Context.outside.read inside = .outside)
    (hlines : Context.outside.nests (write pieces) = true ∨ LinesEnd pieces) :
    let text := write pieces
    let blanked := write (pieces.map blankOut)
    (findReferences name (QuoteMap.lex text) text).filter (Reference.isOutside (commentSpans 0 pieces)) =
      findReferences name (QuoteMap.lex blanked) blanked := by
  intro text blanked
  have h : JsonPiece.IsRestored pieces := ⟨hformed, hback, hlines⟩
  refine eq_of_mem_iff (f := fun r : Reference => r.span.start) ((ascending_findReferences name _).filter _)
    (ascending_findReferences name _) fun r => ?_
  rw [List.mem_filter, h.mem_findReferences_iff, ← JsonPiece.isReference_blankOut_iff]
  constructor
  · exact h.blankOut.mem_findReferences
  · intro hr
    rcases h.blankOut.isReference_or_within hr with hreference | ⟨front, _, back, heq, hcomment, ⟨c, hopener, hc⟩, -⟩
    · exact hreference
    · obtain ⟨piece, -, rfl⟩ := List.mem_map.mp (heq ▸ List.mem_append_right front List.mem_cons_self)
      have hmarks (form : Form) : ∀ c ∈ ['/', '*', ' '], c ∉ form.opener :=
        forall_mem_of_all (by cases form <;> decide)
      have hmark := JsonPiece.mem_blankOut (JsonPiece.comment?_blankOut piece ▸ hcomment) c hc
      exact absurd hopener (hmarks _ c hmark)

/-- Comments with apostrophes, and with the name between quotes of its own. -/
theorem findReferences_blankOut_sales :
    let pieces : List JsonPiece := [.line " don't, won't".toList, .blank '\n', .token (.mark '['),
      .token (.string "Sales".toList), .block " the 'Sales' bar ".toList, .token (.mark ']')]
    let text := JsonPiece.write pieces
    let blanked := JsonPiece.write (pieces.map JsonPiece.blankOut)
    (∀ piece ∈ pieces, piece.isFormed = true) ∧
      (∀ piece ∈ pieces, ∀ inside ∈ piece.comment?, Context.outside.read inside = .outside) ∧
      JsonPiece.LinesEnd pieces ∧
      findReferences "Sales".toList (QuoteMap.lex text) text = [⟨⟨18, 23⟩, .string⟩, ⟨⟨32, 37⟩, .single⟩] ∧
      (findReferences "Sales".toList (QuoteMap.lex text) text).filter
          (Reference.isOutside (JsonPiece.commentSpans 0 pieces)) =
        findReferences "Sales".toList (QuoteMap.lex blanked) blanked := by
  intro pieces text blanked
  have hformed : ∀ piece ∈ pieces, piece.isFormed = true := by decide
  have hback : ∀ piece ∈ pieces, ∀ inside ∈ piece.comment?, Context.outside.read inside = .outside := by decide
  have hlines : JsonPiece.LinesEnd pieces := by
    unfold JsonPiece.LinesEnd
    decide
  exact ⟨hformed, hback, hlines, by decide +kernel,
    findReferences_blankOut "Sales".toList pieces hformed hback (.inr hlines)⟩

/-- An apostrophe that is not closed in its comment hides what follows. -/
theorem findReferences_apostrophe :
    let pieces : List JsonPiece := [.line " it's".toList, .blank '\n', .token (.mark '{'), .token (.string ['y']),
      .token (.mark ':'), .token (.string "Sales".toList), .token (.mark '}')]
    let text := JsonPiece.write pieces
    let blanked := JsonPiece.write (pieces.map JsonPiece.blankOut)
    (∀ piece ∈ pieces, piece.isFormed = true) ∧
      (findReferences "Sales".toList (QuoteMap.lex text) text).filter
        (Reference.isOutside (JsonPiece.commentSpans 0 pieces)) = [] ∧
      findReferences "Sales".toList (QuoteMap.lex blanked) blanked = [⟨⟨14, 19⟩, .string⟩] := by
  decide +kernel

end FieldRemap
