/-
  FieldRemap.Proofs.Whole — a reference takes up the whole string it is written in.

  A quoted reference is whole when the string opened by its delimiter stays open up to the last
  character of its closer and is closed by that one (`IsStringContent`); a bare bracket or an
  accessor is whole when it lies in one literal from its opener to its closer (`IsWhole`). What
  the search finds is whole, in any text and for any name, with one exception (`isWhole_iff`): a
  name with an apostrophe between single quotes outside every literal. There the form writes the
  apostrophe as it stands in an expression string, `\\'`, and the literal ends at it.
-/

import FieldRemap.Proofs.Search

namespace FieldRemap

/-! ## Whole references -/

/-- The context lies in the string that has been opened: in the expression string, if one has, and
    in the literal otherwise. -/
def Context.StaysIn (opened context : Context) : Prop :=
  match opened.inner with
  | .code => context ≠ .outside
  | inner => Within inner context

/-- What is between the delimiters is the content of a string: the string the opener opens stays
    open up to the last character of the closer, and that one closes it. -/
structure IsStringContent (context : Context) (opener content closer : List Char) : Prop where
  inside : ∀ front, front <+: content ++ closer → front ≠ content ++ closer →
    (context.read opener).StaysIn ((context.read opener).read front)
  closes : context.read (opener ++ (content ++ closer)) = context

/-- The string stays open all the way through its content. -/
theorem IsStringContent.staysIn {context : Context} {opener content closer front : List Char}
    (h : IsStringContent context opener content closer) (hcloser : closer ≠ []) (hfront : front <+: content) :
    (context.read opener).StaysIn ((context.read opener).read front) := by
  refine h.inside front (hfront.trans (List.prefix_append _ _)) ?_
  rintro rfl
  have := hfront.length_le
  have := List.length_pos_of_ne_nil hcloser
  rw [List.length_append] at *
  omega

structure IsFound (text : List Char) (r : Reference) (before content rest : List Char) : Prop where
  text_eq : text = before ++ (r.form.opener ++ (content ++ (r.form.closer ++ rest)))
  span_eq : r.span = ⟨byteLength before + byteLength r.form.opener,
    byteLength before + byteLength r.form.opener + byteLength content⟩
  isBounded : r.form.isBounded (QuoteMap.lex text) (byteLength before) = true

/-- A quoted reference spans the content of the string opened by its delimiter; a bare bracket or an
    accessor lies in one literal, its delimiters with it. -/
def IsWhole (text : List Char) (r : Reference) : Prop :=
  ∃ before content rest, IsFound text r before content rest ∧
    match r.form with
    | .string | .escaped | .single =>
      IsStringContent (Context.outside.read before) r.form.opener content r.form.closer ∧
        (Context.outside.read before = .outside → r.span ∈ (QuoteMap.lex text).literals.toList)
    | .bracket | .accessor =>
      ∃ literal ∈ (QuoteMap.lex text).literals.toList, literal.start ≤ byteLength before ∧
        byteLength before + byteLength (r.form.opener ++ (content ++ r.form.closer)) ≤ literal.stop

/-- A name with an apostrophe is referred to between single quotes that open outside every literal. -/
def IsUnderEscaped (name text : List Char) (r : Reference) : Prop :=
  r.form = .single ∧ (QuoteMap.lex text).inLiteral (r.span.start - 1) = false ∧ '\'' ∈ name

/-! ## The literals of a text -/

/-- A literal that is open goes on as far as the text stays inside. -/
theorem exists_literalSpan_of_through {context : Context} {pos opened : Nat} {part rest : List Char}
    (hpart : context.Through (· ≠ .outside) part) (h : opened ≤ pos) :
    ∃ span ∈ literalSpans context pos opened (part ++ rest),
      span.start = opened ∧ pos + byteLength part ≤ span.stop := by
  induction part generalizing context pos with
  | nil => exact exists_literalSpan hpart.read h
  | cons c part ih =>
    obtain ⟨hcontext, hpart⟩ := Context.through_cons.mp hpart
    have hopen : ¬ context.closes c = true := fun hc => hpart [] List.nil_prefix (closes_iff.mp hc).2
    obtain ⟨span, hspan, hstart, hstop⟩ := ih hpart (Nat.le_add_right_of_le h)
    rw [List.cons_append, literalSpans, if_neg hopen, if_neg hcontext]
    refine ⟨span, hspan, hstart, ?_⟩
    rw [byteLength_cons]
    omega

/-- Outside every literal it makes no difference where the last one has started. -/
theorem literalSpans_outside (pos opened opened' : Nat) (text : List Char) :
    literalSpans .outside pos opened text = literalSpans .outside pos opened' text := by
  cases text <;> rfl

/-- A literal that is open ends before the character that closes it, and the others follow. -/
theorem literalSpans_of_through {context : Context} {pos opened : Nat} {part rest : List Char} {c : Char}
    (hpart : context.Through (· ≠ .outside) part) (hc : (context.read part).next c = .outside) :
    literalSpans context pos opened (part ++ c :: rest) = ⟨opened, pos + byteLength part⟩ ::
      literalSpans .outside (pos + byteLength part + c.utf8Size) opened rest := by
  induction part generalizing context pos with
  | nil =>
    have hcontext : context ≠ .outside := hpart.read
    have hcloses : context.closes c = true := closes_iff.mpr ⟨hcontext, hc⟩
    rw [Context.read_nil] at hc
    simp [literalSpans, hcloses, hcontext, hc]
  | cons d part ih =>
    obtain ⟨hcontext, hpart⟩ := Context.through_cons.mp hpart
    have hopen : ¬ context.closes d = true := fun hd => hpart [] List.nil_prefix (closes_iff.mp hd).2
    rw [List.cons_append, literalSpans, if_neg hopen, if_neg hcontext, byteLength_cons, ← Nat.add_assoc]
    exact ih hpart hc

/-- What is a literal behind a place of the text is a literal of the text. -/
theorem literalSpans_append {context : Context} {pos opened : Nat} (before rest : List Char) (h : opened ≤ pos) :
    ∃ opened' ≤ pos + byteLength before,
      literalSpans (context.read before) (pos + byteLength before) opened' rest ⊆
        literalSpans context pos opened (before ++ rest) := by
  induction before generalizing context pos opened with
  | nil => exact ⟨opened, h, fun _ hspan => hspan⟩
  | cons c before ih =>
    have hopened : (if context = .outside then pos + c.utf8Size else opened) ≤ pos + c.utf8Size := by
      split <;> omega
    obtain ⟨opened', hle, hsub⟩ := @ih (context.next c) _ _ hopened
    rw [byteLength_cons, ← Nat.add_assoc]
    refine ⟨opened', hle, fun span hspan => ?_⟩
    rw [List.cons_append, literalSpans]
    split
    · exact List.mem_cons_of_mem _ (hsub hspan)
    · exact hsub hspan

namespace QuoteMap

variable {before part rest : List Char}

/-- A stretch that stays inside lies in one literal. -/
theorem exists_literal_of_through (h : (Context.outside.read before).Through (· ≠ .outside) part) :
    ∃ literal ∈ (lex (before ++ (part ++ rest))).literals.toList,
      literal.start ≤ byteLength before ∧ byteLength before + byteLength part ≤ literal.stop := by
  obtain ⟨opened, hle, hsub⟩ := @literalSpans_append .outside 0 0 before (part ++ rest) (Nat.le_refl 0)
  obtain ⟨span, hspan, rfl, hstop⟩ := @exists_literalSpan_of_through _ _ opened part rest h hle
  rw [literals_lex]
  rw [Nat.zero_add] at hle hstop
  exact ⟨span, hsub hspan, hle, hstop⟩

/-- What stands between the character that opens a literal and the one that closes it is a literal. -/
theorem mem_literals_of_through {c d : Char} (hbefore : Context.outside.read before = .outside)
    (hpart : (Context.outside.next c).Through (· ≠ .outside) part)
    (hd : ((Context.outside.next c).read part).next d = .outside) :
    ⟨byteLength before + c.utf8Size, byteLength before + c.utf8Size + byteLength part⟩ ∈
      (lex (before ++ c :: (part ++ d :: rest))).literals.toList := by
  obtain ⟨opened, -, hsub⟩ :=
    @literalSpans_append .outside 0 0 before (c :: (part ++ d :: rest)) (Nat.le_refl 0)
  rw [literals_lex]
  refine hsub ?_
  have hopens : ¬ Context.outside.closes c = true := fun hc => (closes_iff.mp hc).1 rfl
  rw [hbefore, Nat.zero_add, literalSpans, if_neg hopens, if_pos rfl]
  rw [literalSpans_of_through hpart hd]
  exact List.mem_cons_self

end QuoteMap

/-! ## What the search finds -/

/-- What is found is the name between the delimiters of its form, where the form may open; behind an
    accessor stands no character of a word. -/
theorem exists_isFound_ends {name text : List Char} {r : Reference}
    (h : r ∈ findReferences name (QuoteMap.lex text) text) :
    r.form.admits name = true ∧ ∃ before rest, IsFound text r before (r.form.write name) rest ∧
      (r.form = .accessor → Form.endsAccessor rest = true) := by
  obtain ⟨hadmits, before, rest, htext, hspan, hbounded, hends⟩ := exists_of_mem_findReferences h
  have htext : text = before ++ (r.form.opener ++ (r.form.write name ++ (r.form.closer ++ rest))) := by
    rw [htext]
    simp [Form.wrap]
  exact ⟨hadmits, before, rest, ⟨htext, hspan, hbounded⟩, hends⟩

theorem exists_isFound {name text : List Char} {r : Reference}
    (h : r ∈ findReferences name (QuoteMap.lex text) text) :
    r.form.admits name = true ∧ ∃ before rest, IsFound text r before (r.form.write name) rest := by
  obtain ⟨hadmits, before, rest, hfound, -⟩ := exists_isFound_ends h
  exact ⟨hadmits, before, rest, hfound⟩

/-- The place of a reference is told by its span. -/
theorem IsFound.unique {text before before' content content' rest rest' : List Char} {r : Reference}
    (h : IsFound text r before content rest) (h' : IsFound text r before' content' rest') :
    before = before' ∧ content = content' := by
  have hspan := h.span_eq.symm.trans h'.span_eq
  simp only [Span.mk.injEq] at hspan
  have he := h.text_eq.symm.trans h'.text_eq
  have hbefore : before = before' := by
    have hprefix : before <+: text := h.text_eq ▸ List.prefix_append _ _
    exact eq_of_byteLength_eq hprefix (h'.text_eq ▸ List.prefix_append _ _) (by omega)
  subst hbefore
  have he := List.append_cancel_left (List.append_cancel_left he)
  have hprefix : content' <+: content ++ (r.form.closer ++ rest) := he ▸ List.prefix_append _ _
  exact ⟨rfl, eq_of_byteLength_eq (List.prefix_append _ _) hprefix (by omega)⟩

theorem bounds_of_mem_findReferences {name text : List Char} {r : Reference}
    (hr : r ∈ findReferences name (QuoteMap.lex text) text) :
    r.span.start < r.span.stop ∧ r.span.stop ≤ byteLength text := by
  have hne : name ≠ [] := by
    rintro rfl
    cases hr
  obtain ⟨-, before, rest, hfound⟩ := exists_isFound hr
  have hwritten := byteLength_pos (@Form.write_ne_nil r.form name hne)
  rw [hfound.span_eq, hfound.text_eq]
  simp only [byteLength_append]
  omega

/-! ## Strings in a double-quoted literal -/

namespace Form

variable {form : Form} {context : Context} {name : List Char}

/-- Where a quoted form fits, its name is the content of a string. -/
theorem isStringContent_of_fits (hb : form ≠ .bracket) (hacc : form ≠ .accessor)
    (hf : form.fits context = true) (ha : form.admits name = true) :
    IsStringContent context form.opener (form.write name) form.closer := by
  have hopener := read_opener hf
  refine ⟨fun front hp hne => ?_, ?_⟩
  · have hholds := holds_of_isPrefix hf ha hp hne
    rw [hopener]
    cases form with
    | string => exact Context.ne_outside_of_inString hholds
    | escaped | single => exact hholds
    | bracket => exact absurd rfl hb
    | accessor => exact absurd rfl hacc
  · have hread := read_wrap hf ha
    rw [wrap] at hread
    rw [hread]
    cases form with
    | string | escaped | single => exact (beq_iff_eq.mp hf).symm
    | bracket => exact absurd rfl hb
    | accessor => exact absurd rfl hacc

end Form

/-! ## Single quotes outside every literal -/

namespace Context

/-- A text without apostrophes stays in a single-quoted literal. -/
theorem through_single {context : Context} {text : List Char} (h : context = .single ∨ context = .singleBackslash)
    (ht : '\'' ∉ text) : context.Through (· ≠ .outside) text := by
  induction text generalizing context with
  | nil => rcases h with rfl | rfl <;> exact through_nil.mpr (by decide)
  | cons c text ih =>
    obtain ⟨hc, ht⟩ := List.ne_and_not_mem_of_not_mem_cons ht
    have hnext : context.next c = .single ∨ context.next c = .singleBackslash := by
      rcases h with rfl | rfl
      · by_cases hb : c = '\\' <;> simp [next, hb, Ne.symm hc]
      · exact .inl rfl
    refine through_cons.mpr ⟨?_, ih hnext ht⟩
    rcases h with rfl | rfl <;> decide

/-- A text without apostrophes and backslashes leaves a single-quoted literal where it is. -/
theorem read_single {text : List Char} (hq : '\'' ∉ text) (hb : '\\' ∉ text) : Context.single.read text = .single := by
  induction text with
  | nil => rfl
  | cons c text ih =>
    obtain ⟨hqc, hq⟩ := List.ne_and_not_mem_of_not_mem_cons hq
    obtain ⟨hbc, hb⟩ := List.ne_and_not_mem_of_not_mem_cons hb
    simpa [next, Ne.symm hqc, Ne.symm hbc] using ih hq hb

/-- A character other than the apostrophe is written without one, and leaves a single-quoted literal
    where it is. -/
theorem single_escapeSingleChar {c : Char} (hc : c ≠ '\'') :
    '\'' ∉ encodeName (escapeSingleChar c) ∧ Context.single.read (encodeName (escapeSingleChar c)) = .single := by
  have hcases := encodedSingle c
  generalize encodeName (escapeSingleChar c) = u at hcases
  cases hcases with
  | backslash _ => decide
  | quote hq => exact absurd hq hc
  | other u hb hs he =>
    cases he with
    | plain _ _ => exact ⟨fun hm => hc (List.mem_singleton.mp hm).symm, by simp [next, hb, hs]⟩
    | pair hpair => rcases hpair with rfl | rfl <;> decide
    | control k rest _ hk =>
      have hnot {x : Char} (hx : x.isAlphanum = false) : x ∉ k :: rest := fun hm => ne_of_isAlphanum (hk x hm) hx rfl
      have hq : '\'' ∉ k :: rest := hnot (by decide)
      refine ⟨fun hm => (List.mem_cons.mp hm).elim (by decide) hq, ?_⟩
      have hb : '\\' ∉ rest := fun hm => hnot (x := '\\') (by decide) (List.mem_cons_of_mem k hm)
      exact @read_single rest (fun hm => hq (List.mem_cons_of_mem k hm)) hb

theorem write_single_cons (c : Char) (name : List Char) :
    Form.single.write (c :: name) = encodeName (escapeSingleChar c) ++ Form.single.write name := by
  simp [Form.write, escapeSingle, encodeName_append]

/-- So is a name. -/
theorem single_write {name : List Char} (h : '\'' ∉ name) :
    '\'' ∉ Form.single.write name ∧ Context.single.read (Form.single.write name) = .single := by
  induction name with
  | nil => exact ⟨List.not_mem_nil, rfl⟩
  | cons c name ih =>
    obtain ⟨hc, hname⟩ := List.ne_and_not_mem_of_not_mem_cons h
    obtain ⟨hchar, hread⟩ := single_escapeSingleChar (Ne.symm hc)
    obtain ⟨hrest, hreads⟩ := ih hname
    rw [write_single_cons, read_append, hread]
    exact ⟨fun hm => (List.mem_append.mp hm).elim hchar hrest, hreads⟩

/-- An apostrophe of a name, as it is written, ends a single-quoted literal. -/
theorem exists_outside_of_mem {name : List Char} (h : '\'' ∈ name) :
    ∃ front, front <+: Form.single.write name ∧ Context.single.read front = .outside := by
  induction name with
  | nil => cases h
  | cons c name ih =>
    rw [write_single_cons]
    by_cases hc : c = '\''
    · subst hc
      exact ⟨encodeName (escapeSingleChar '\''), List.prefix_append _ _, by decide⟩
    · obtain ⟨front, hfront, hread⟩ := ih ((List.mem_cons.mp h).resolve_left (Ne.symm hc))
      refine ⟨_, (List.prefix_append_right_inj _).mpr hfront, ?_⟩
      rw [read_append, (single_escapeSingleChar hc).2, hread]

end Context

/-- Between single quotes outside every literal the content of a string is a name without apostrophes. -/
theorem isStringContent_single_iff {name : List Char} :
    IsStringContent .outside (Form.opener .single) (Form.single.write name) (Form.closer .single) ↔ '\'' ∉ name := by
  constructor
  · intro h hmem
    obtain ⟨front, hfront, hread⟩ := Context.exists_outside_of_mem hmem
    exact h.staysIn (by decide) hfront hread
  · intro hname
    obtain ⟨hwrite, hback⟩ := Context.single_write hname
    refine ⟨fun front hp hne => ?_, ?_⟩
    · -- a proper beginning stops before the closing quote
      have hfront : front <+: Form.single.write name :=
        (List.prefix_concat_iff.mp hp).resolve_left hne
      exact Context.through_single (.inl rfl) hwrite front hfront
    · calc Context.outside.read (Form.opener .single ++ (Form.single.write name ++ Form.closer .single))
          = (Context.single.read (Form.single.write name)).read (Form.closer .single) := by
            rw [Context.read_append, Context.read_append]; rfl
        _ = .outside := by rw [hback]; rfl

/-! ## Brackets and accessors -/

/-- A bare bracket or an accessor stays inside the literal it opens in. -/
theorem Form.through_bare {form : Form} {context : Context} {name : List Char}
    (hbare : form = .bracket ∨ form = .accessor) (ha : form.admits name = true)
    (hc : form.fits context = true ∨ context = .single ∨ context = .singleBackslash) :
    context.Through (· ≠ .outside) (form.wrap name) := by
  rcases hc with hf | hs
  · have hstring : form ≠ .string := by rcases hbare with rfl | rfl <;> decide
    exact (through_wrap hstring hf ha).mono fun _ => Context.ne_outside_of_inString
  · refine Context.through_single hs ?_
    rcases hbare with rfl | rfl
    · have hname : '\'' ∉ encodeName name := fun hm => ne_of_mem_bareKey ha hm (by simp) rfl
      simp [wrap, opener, write, closer, hname]
    · have hname : '\'' ∉ name := fun hm => ne_of_isIdentifierPart (isIdentifierPart_of_mem ha hm) (by decide) rfl
      simp [wrap, opener, write, closer, hname]

/-! ## Wholeness -/

/-- The content of a string opened outside every literal is a literal of the text. -/
theorem IsStringContent.mem_literals {before content rest : List Char} {c d : Char}
    (h : IsStringContent .outside [c] content [d]) (hbefore : Context.outside.read before = .outside)
    (hc : (Context.outside.next c).inner = .code) :
    ⟨byteLength before + c.utf8Size, byteLength before + c.utf8Size + byteLength content⟩ ∈
      (QuoteMap.lex (before ++ c :: (content ++ d :: rest))).literals.toList := by
  have hstays {context : Context} (hs : (Context.outside.next c).StaysIn context) : context ≠ .outside := by
    unfold Context.StaysIn at hs
    rw [hc] at hs
    exact hs
  refine QuoteMap.mem_literals_of_through hbefore (fun front hfront => ?_) ?_
  · exact hstays (h.staysIn (List.cons_ne_nil d []) hfront)
  · have := h.closes
    rwa [Context.read_append, Context.read_append] at this

section

variable {name text before rest : List Char} {r : Reference}

/-- A reference is under-escaped when its single quotes open outside every literal and its name has
    an apostrophe. -/
theorem IsFound.isUnderEscaped_iff (h : IsFound text r before (r.form.write name) rest) :
    IsUnderEscaped name text r ↔ r.form = .single ∧ Context.outside.read before = .outside ∧ '\'' ∈ name := by
  refine and_congr_right fun hform => and_congr_left fun _ => ?_
  obtain ⟨span, form⟩ := r
  obtain rfl : form = .single := hform
  obtain ⟨htext, hspan, hbounded⟩ := h
  dsimp only at htext hspan hbounded ⊢
  subst htext hspan
  have hsize : byteLength before + byteLength (Form.opener .single) - 1 = byteLength before := by
    simp [Form.opener, show Char.utf8Size '\'' = 1 by decide]
  have hin := QuoteMap.inLiteral_lex before (Form.single.write name ++ (Form.closer .single ++ rest)) '\''
  simp only [hsize]
  rw [← Bool.not_eq_true]
  refine (not_congr hin).trans ?_
  rcases Form.isBounded_iff.mp hbounded with hf | ⟨-, ho⟩ | ⟨hbare | hbare, -⟩
  · rw [show Context.outside.read before = _ from beq_iff_eq.mp hf]
    decide
  · simp [ho]
  · cases hbare
  · cases hbare

/-- A quoted reference is whole where what it writes is the content of a string. -/
theorem IsFound.isWhole_of_isStringContent (h : IsFound text r before (r.form.write name) rest)
    (hform : r.form ≠ .bracket ∧ r.form ≠ .accessor)
    (hcontent : IsStringContent (Context.outside.read before) r.form.opener (r.form.write name) r.form.closer)
    (houtside : Context.outside.read before = .outside → r.form ≠ .escaped) : IsWhole text r := by
  refine ⟨before, r.form.write name, rest, h, ?_⟩
  obtain ⟨span, form⟩ := r
  obtain ⟨htext, hspan, -⟩ := h
  dsimp only at htext hspan hform hcontent houtside ⊢
  subst htext hspan
  cases form with
  | bracket => exact absurd rfl hform.1
  | accessor => exact absurd rfl hform.2
  | escaped => exact ⟨hcontent, fun ho => absurd rfl (houtside ho)⟩
  | string | single =>
    refine ⟨hcontent, fun ho => ?_⟩
    rw [ho] at hcontent
    exact hcontent.mem_literals ho rfl

theorem IsFound.isWhole_of_bare (h : IsFound text r before (r.form.write name) rest)
    (hform : r.form = .bracket ∨ r.form = .accessor)
    (hwrap : (Context.outside.read before).Through (· ≠ .outside) (r.form.wrap name)) : IsWhole text r := by
  refine ⟨before, r.form.write name, rest, h, ?_⟩
  obtain ⟨literal, hliteral, hstart, hstop⟩ := @QuoteMap.exists_literal_of_through before _ rest hwrap
  have htext : text = before ++ (r.form.wrap name ++ rest) := by simp [h.text_eq, Form.wrap]
  obtain ⟨span, form⟩ := r
  rw [← htext] at hliteral
  rcases hform with rfl | rfl <;> exact ⟨literal, hliteral, hstart, hstop⟩

theorem IsWhole.isStringContent (hwhole : IsWhole text r) (h : IsFound text r before (r.form.write name) rest)
    (hform : r.form = .single) :
    IsStringContent (Context.outside.read before) (Form.opener .single) (Form.single.write name)
      (Form.closer .single) := by
  obtain ⟨before', content, rest', hfound, hcontent⟩ := hwhole
  obtain ⟨rfl, rfl⟩ := h.unique hfound
  rw [hform] at hcontent
  exact hcontent.1

/-- What the search finds is whole, unless it is a name with an apostrophe between single quotes that
    open outside every literal; that one is not. -/
theorem isWhole_iff (hr : r ∈ findReferences name (QuoteMap.lex text) text) :
    IsWhole text r ↔ ¬ IsUnderEscaped name text r := by
  obtain ⟨hadmits, before, rest, hfound⟩ := exists_isFound hr
  rw [hfound.isUnderEscaped_iff]
  have hbounded := hfound.isBounded
  rw [hfound.text_eq] at hbounded
  rcases Form.isBounded_iff.mp hbounded with hf | ⟨hform, ho⟩ | ⟨hform, hs⟩
  · refine iff_of_true ?_ ?_
    · by_cases hbare : r.form = .bracket ∨ r.form = .accessor
      · exact hfound.isWhole_of_bare hbare (Form.through_bare hbare hadmits (.inl hf))
      · have hform := not_or.mp hbare
        refine hfound.isWhole_of_isStringContent hform (Form.isStringContent_of_fits hform.1 hform.2 hf hadmits) ?_
        intro ho hescaped
        rw [hescaped, ho] at hf
        cases hf
    · rintro ⟨hform, ho, -⟩
      rw [hform, ho] at hf
      cases hf
  · constructor
    · intro hwhole hunder
      have hcontent := hwhole.isStringContent hfound hform
      rw [ho] at hcontent
      exact isStringContent_single_iff.mp hcontent hunder.2.2
    · intro hunder
      have hname : '\'' ∉ name := fun hmem => hunder ⟨hform, ho, hmem⟩
      have hquoted : r.form ≠ .bracket ∧ r.form ≠ .accessor := by simp [hform]
      refine hfound.isWhole_of_isStringContent hquoted ?_ fun _ => by simp [hform]
      rw [ho, hform]
      exact isStringContent_single_iff.mpr hname
  · refine iff_of_true (hfound.isWhole_of_bare hform (Form.through_bare hform hadmits (.inr hs))) ?_
    rintro ⟨hsingle, -, -⟩
    simp [hsingle] at hform

end

/-- The name of an expression string may hold apostrophes and quotes. -/
theorem isWhole_iff_nested :
    let name := "it's \"x\"".toList
    let text := "[\"it's \\\"x\\\"\",\"datum['it\\\\'s \\\"x\\\"'] + datum[\\\"it's \\\\\\\"x\\\\\\\"\\\"]\"]".toList
    let r : Reference := ⟨⟨22, 34⟩, .single⟩
    r ∈ findReferences name (QuoteMap.lex text) text ∧ (IsWhole text r ↔ ¬ IsUnderEscaped name text r) := by
  intro name text r
  have hr : r ∈ findReferences name (QuoteMap.lex text) text := by decide +kernel
  exact ⟨hr, isWhole_iff hr⟩

/-- Between single quotes outside every literal a name with an apostrophe is found where the literal
    ends before the name does. -/
theorem findReferences_underEscaped :
    let text := "'it\\\\'s'".toList
    findReferences "it's".toList (QuoteMap.lex text) text = [⟨⟨1, 7⟩, .single⟩] ∧
      (QuoteMap.lex text).literals.toList = [⟨1, 5⟩, ⟨8, 8⟩] ∧ ¬ IsWhole text ⟨⟨1, 7⟩, .single⟩ := by
  intro text
  refine ⟨by decide +kernel, by decide +kernel, fun hwhole => ?_⟩
  have hfound : IsFound text ⟨⟨1, 7⟩, .single⟩ [] (Form.single.write "it's".toList) [] :=
    ⟨by decide, by decide, by decide +kernel⟩
  exact isStringContent_single_iff.mp (hwhole.isStringContent hfound rfl) (by decide)

end FieldRemap
