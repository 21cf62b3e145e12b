/-
  FieldRemap.Proofs.View — how a text is read whose names are replaced by tokens.

  The lexer records a character where a test of the context and the character holds. The tests it
  makes see neither the characters of a token nor, at the closer of a JSON string, what the string
  was (`Steadfast`); and a reference leaves the context as its form does, whatever its name. So
  what is recorded of the passages of a text is recorded of the text with the tokens, at the
  places where it has gone (`records_target`), and the literals go with their delimiters
  (`literals_target`).

  For a tokenized text this is the whole view: every list is the image of the one of the original,
  a position that is kept opens and lies in what it opened and lay in, and in a token nothing
  opens (`lex_tokenize`).
-/

import FieldRemap.Proofs.Queries
import FieldRemap.Proofs.Shift
import FieldRemap.Proofs.Tokenization

namespace FieldRemap

open Passage Shift Retarget

/-! ## Marks -/

section Marks

variable {test : Context → Char → Bool} {context : Context} {pos x : Nat} {text : List Char}

theorem marks_add (test : Context → Char → Bool) (context : Context) (pos bytes : Nat) (text : List Char) :
    marks test context (pos + bytes) text = (marks test context pos text).map (· + bytes) := by
  induction text generalizing context pos with
  | nil => rfl
  | cons c text ih =>
    simp only [marks, Nat.add_right_comm pos bytes, ih]
    split <;> rfl

theorem marks_eq_nil (h : ∀ before c after, text = before ++ c :: after → test (context.read before) c = false) :
    marks test context pos text = [] := by
  refine List.eq_nil_iff_forall_not_mem.mpr fun x hx => ?_
  obtain ⟨before, c, after, htext, htest, -⟩ := mem_marks.mp hx
  rw [h before c after htext] at htest
  cases htest

theorem bounds_of_mem_marks (h : x ∈ marks test context pos text) : pos ≤ x ∧ x < pos + byteLength text := by
  obtain ⟨before, c, after, rfl, -, rfl⟩ := mem_marks.mp h
  have := c.utf8Size_pos
  simp only [byteLength_append, byteLength_cons]
  omega

end Marks

/-! ## What the lexer tests -/

/-- The context is not behind a backslash of a double-quoted literal. -/
def Context.Settled (context : Context) : Prop :=
  ∀ inner escaped, context ≠ .backslash inner escaped

/-- A test that holds of no character of a token, and of the quote that ends a JSON string whatever the string
    was. What it holds of is recorded so many bytes back, and then a backslash stands there. -/
structure Steadfast (test : Context → Char → Bool) (back : Nat) : Prop where
  token : ∀ context c, isTokenChar c = true → test context c = false
  quote : ∀ inner escaped, test (.literal inner escaped) '"' = test (.literal .code false) '"'
  settled : ∀ context c, context.Settled → test context c = true → back = 0
  back_le : back ≤ 1

def Context.enters (context : Context) (c : Char) : Bool :=
  context == .outside && (context.next c).isInside

theorem ne_quote_of_isTokenChar {c : Char} (h : isTokenChar c = true) : c ≠ '"' ∧ c ≠ '\'' :=
  ⟨ne_of_isTokenChar h (by decide), ne_of_isTokenChar h (by decide)⟩

theorem steadfast_opensString : Steadfast Context.opensString 0 where
  token _ _ h := by simp [Context.opensString, (ne_quote_of_isTokenChar h).1]
  quote _ _ := rfl
  settled _ _ _ _ := rfl
  back_le := Nat.zero_le _

theorem steadfast_opensSingle : Steadfast Context.opensSingle 0 where
  token _ _ h := by simp [Context.opensSingle, (ne_quote_of_isTokenChar h).2]
  quote _ _ := by simp [Context.opensSingle]
  settled _ _ _ _ := rfl
  back_le := Nat.zero_le _

theorem steadfast_opensEscaped : Steadfast Context.opensEscaped 1 where
  token _ _ h := by simp [Context.opensEscaped, (ne_quote_of_isTokenChar h).1]
  quote _ _ := rfl
  settled context c h ht := by
    simp only [Context.opensEscaped, Bool.and_eq_true, beq_iff_eq] at ht
    exact absurd ht.1 (h _ _)
  back_le := Nat.le_refl _

theorem steadfast_enters : Steadfast Context.enters 0 where
  token context c h := by
    obtain ⟨hquote, hsingle⟩ := ne_quote_of_isTokenChar h
    cases context <;> simp [Context.enters, Context.next, Context.isInside, hquote, hsingle]
  quote _ _ := rfl
  settled _ _ _ _ := rfl
  back_le := Nat.zero_le _

/-- Only a quote closes a literal. -/
theorem eq_quote_of_closes {context : Context} {c : Char} (h : context.closes c = true) : c = '"' ∨ c = '\'' := by
  obtain ⟨hinside, hnext⟩ := closes_iff.mp h
  match context, hinside with
  | .outside, hinside => exact absurd rfl hinside
  | .literal _ _, _ =>
    simp only [Context.next] at hnext
    split at hnext
    · next hc => exact .inl hc
    · (repeat' split at hnext) <;> cases hnext
  | .backslash _ true, _ => cases hnext
  | .backslash _ false, _ =>
    simp only [Context.next] at hnext
    (repeat' split at hnext) <;> cases hnext
  | .single, _ =>
    simp only [Context.next] at hnext
    split at hnext
    · cases hnext
    · split at hnext
      · next hc => exact .inr hc
      · cases hnext
  | .singleBackslash, _ => cases hnext

theorem steadfast_closes : Steadfast Context.closes 0 where
  token context c h := by
    obtain ⟨hquote, hsingle⟩ := ne_quote_of_isTokenChar h
    refine Bool.eq_false_iff.mpr fun hcloses => ?_
    rcases eq_quote_of_closes hcloses with hc | hc
    · exact hquote hc
    · exact hsingle hc
  quote _ _ := rfl
  settled _ _ _ _ := rfl
  back_le := Nat.zero_le _

section Records

variable {test : Context → Char → Bool} {back : Nat} {context : Context} {form : Form} {text tail : List Char}
  {p : Passage} {ps : List Passage}

theorem settled_literal (inner : ExpressionContext) (escaped : Bool) : (Context.literal inner escaped).Settled :=
  fun _ _ h => nomatch h

theorem settled_leave (form : Form) (context : Context) : (form.leave context).Settled := by
  cases form <;> exact fun _ _ h => nomatch h

/-- What is recorded stands no further back than the text begins. -/
theorem Steadfast.le_of_mem_marks (ht : Steadfast test back) (hs : context.Settled) {pos x : Nat}
    (h : x ∈ marks test context pos text) : pos + back ≤ x := by
  have hback := ht.back_le
  obtain ⟨before, c, after, -, htest, rfl⟩ := mem_marks.mp h
  cases before with
  | nil => exact Nat.add_le_add_left (Nat.le_of_eq (ht.settled _ _ hs htest)) _
  | cons d before =>
    have := d.utf8Size_pos
    simp only [byteLength_cons]
    omega

/-! ## Marks of a passage -/

/-- A name is read inside the literal its opener stands in or opens. -/
theorem Form.through_write {name : List Char} (ha : form.admits name = true) :
    (Context.literal (form.inside context) false).Through (fun c => c.inString = true) (form.write name) := by
  by_cases hform : form = .string
  · subst hform
    exact (through_encodeName _ _ name).1
  · exact (Form.steady_write hform ha).within.mono fun _ h => h.1

theorem Form.exists_read_write {name : List Char} (ha : form.admits name = true) : ∃ inner escaped,
    (Context.literal (form.inside context) false).read (form.write name) = .literal inner escaped := by
  by_cases hform : form = .string
  · subst hform
    exact (through_encodeName _ _ name).2
  · exact ⟨_, _, (Form.steady_write hform ha).back⟩

/-! ## Records of passages -/

def records (test : Context → Char → Bool) (back : Nat) (context : Context) (text : List Char) : List Nat :=
  (marks test context 0 text).map (· - back)

theorem lt_of_mem_records {x : Nat} (h : x ∈ records test back context text) : x < byteLength text := by
  obtain ⟨y, hy, rfl⟩ := List.mem_map.mp h
  have := (bounds_of_mem_marks hy).2
  omega

/-- What is recorded of a text that stands so many bytes further on. -/
theorem Steadfast.map_sub_marks (ht : Steadfast test back) (hs : context.Settled) (bytes : Nat) (text : List Char) :
    (marks test context bytes text).map (· - back) = (records test back context text).map (· + bytes) := by
  have hmarks := marks_add test context 0 bytes text
  rw [Nat.zero_add] at hmarks
  rw [hmarks, records, List.map_map, List.map_map]
  refine List.map_congr_left fun x hx => ?_
  have := ht.le_of_mem_marks hs hx
  simp only [Function.comp_apply]
  omega

/-- The closer is recorded alike behind every name. -/
theorem Steadfast.records_closer (ht : Steadfast test back) {a b : List Char} (ha : form.admits a = true)
    (hb : form.admits b = true) :
    records test back ((Context.literal (form.inside context) false).read (form.write a)) form.closer =
      records test back ((Context.literal (form.inside context) false).read (form.write b)) form.closer := by
  by_cases hform : form = .string
  · subst hform
    obtain ⟨inner, escaped, hread⟩ := @Form.exists_read_write context .string _ ha
    obtain ⟨inner', escaped', hread'⟩ := @Form.exists_read_write context .string _ hb
    rw [hread, hread']
    show records test back _ ['"'] = records test back _ ['"']
    simp only [records, marks, ht.quote inner escaped, ht.quote inner' escaped']
  · rw [(Form.steady_write hform ha).back, (Form.steady_write hform hb).back]

/-- What is recorded up to a name, of the name, of its closer, and of what follows. -/
theorem Steadfast.records_wrap (ht : Steadfast test back) {lead name : List Char}
    (hfits : form.fits (context.read lead) = true) (ha : form.admits name = true) (rest : List Char) {start stop : Nat}
    (hstart : start = byteLength lead + byteLength form.opener)
    (hstop : stop = start + byteLength (form.write name)) :
    records test back context ((lead ++ form.opener) ++ (form.write name ++ (form.closer ++ rest))) =
      records test back context (lead ++ form.opener) ++
      ((records test back (.literal (form.inside (context.read lead)) false) (form.write name)).map (· + start) ++
      ((records test back ((Context.literal (form.inside (context.read lead)) false).read (form.write name))
        form.closer).map (· + stop) ++
      (records test back (form.leave (context.read lead)) rest).map (· + (stop + byteLength form.closer)))) := by
  have hopener := Form.read_opener hfits
  have hcloser := Form.read_wrap hfits ha
  rw [Form.wrap, Context.read_append, Context.read_append, hopener] at hcloser
  obtain ⟨inner, escaped, hread⟩ := @Form.exists_read_write (context.read lead) form _ ha
  rw [hread] at hcloser ⊢
  rw [← ht.map_sub_marks (settled_literal _ _), ← ht.map_sub_marks (settled_literal _ _),
    ← ht.map_sub_marks (settled_leave _ _), records, marks_append test _ _ (lead ++ form.opener),
    marks_append test _ _ (form.write name), marks_append test _ _ form.closer, Context.read_append, hopener, hread,
    hcloser, hstop, hstart]
  simp only [List.map_append, byteLength_append, Nat.zero_add]
  rfl

/-- What is recorded of the text with the new names is the image of what is recorded of the text. -/
theorem Steadfast.records_target (ht : Steadfast test back) (h : Woven tail context ps)
    (hplain : ∀ p ∈ ps, p.Plain) (htoken : ∀ p ∈ ps, ∀ c ∈ p.new, isTokenChar c = true) :
    records test back context (target tail ps) = image (renewals ps) (records test back context (source tail ps)) := by
  induction h with
  | nil => exact (image_nil _).symm
  | @cons context p ps hfits hadmits _ _ _ ih =>
    obtain ⟨hp, hps⟩ := List.forall_mem_cons.mp hplain
    obtain ⟨hnew, htokens⟩ := List.forall_mem_cons.mp htoken
    have hsource := ht.records_wrap hfits hadmits (source tail ps) rfl rfl
    have htarget := ht.records_wrap hfits hp.1 (target tail ps) rfl rfl
    have hlead := @image_lead p ps (records test back context (p.lead ++ p.form.opener)) fun x hx => by
      have := lt_of_mem_records hx
      rwa [byteLength_append] at this
    -- nothing is recorded of a token
    have hquiet :
        records test back (.literal (p.form.inside (context.read p.lead)) false) (p.form.write p.new) = [] := by
      rw [records, marks_eq_nil, List.map_nil]
      exact fun before c after he => ht.token _ _ (hnew c (by rw [← hp.2, he]; simp))
    rw [hquiet, ht.records_closer hp.1 hadmits, hp.2] at htarget
    rw [source_cons_split, hsource, target_cons_split hp, htarget, image_append, image_append, image_append, hlead]
    refine congrArg _ (congrArg₂ _ ?_ (congrArg₂ _ ?_ ?_))
    · exact (image_name fun x hx => lt_of_mem_records hx).symm
    · exact (image_closer fun x hx => lt_of_mem_records hx).symm
    · rw [ih hps htokens]
      exact (image_behind p ps _).symm

/-! ## Literals -/

theorem utf8Size_of_enters {c : Char} (h : context.enters c = true) : c.utf8Size = 1 := by
  simp only [Context.enters, Bool.and_eq_true, beq_iff_eq] at h
  obtain ⟨rfl, hinside⟩ := h
  simp only [Context.next] at hinside
  split at hinside
  · next hc => rw [hc]; decide
  · split at hinside
    · next hc => rw [hc]; decide
    · cases hinside

/-- A literal starts behind the character that enters it, and stops at the one that closes it or at the end. -/
theorem literalSpans_eq (context : Context) (pos opened : Nat) (text : List Char) :
    literalSpans context pos opened text =
      (((if context.isInside then [opened] else []) ++ (marks Context.enters context pos text).map (· + 1)).zip
        (marks Context.closes context pos text ++
          if (context.read text).isInside then [pos + byteLength text] else [])).map fun ends : Nat × Nat =>
            Span.mk ends.1 ends.2 := by
  have hnone : Context.outside.isInside = false := rfl
  induction text generalizing context pos opened with
  | nil => by_cases hinside : context.isInside = true <;> simp [literalSpans, marks, hinside]
  | cons c text ih =>
    rw [literalSpans, ih, marks, marks, Context.read_cons, byteLength_cons, ← Nat.add_assoc]
    by_cases hout : context = .outside
    · subst hout
      have hcloses : Context.outside.closes c = false := rfl
      by_cases hinside : (Context.outside.next c).isInside = true
      · have henters : Context.outside.enters c = true := by simp [Context.enters, hinside]
        simp [hcloses, hnone, hinside, henters, utf8Size_of_enters henters]
      · have henters : Context.outside.enters c = false := by simp [Context.enters, hinside]
        simp [hcloses, hnone, hinside, henters]
    · have henters : context.enters c = false := by simp [Context.enters, hout]
      have hinside : context.isInside = true := isInside_iff.mpr hout
      by_cases hnext : context.next c = .outside
      · have hcloses : context.closes c = true := closes_iff.mpr ⟨hout, hnext⟩
        simp [henters, hinside, hcloses, hnext, hnone]
      · have hcloses : context.closes c = false := Bool.eq_false_iff.mpr fun hc => hnext (closes_iff.mp hc).2
        have hinside' : (context.next c).isInside = true := isInside_iff.mpr hnext
        simp [henters, hinside, hcloses, hinside', hout]

def Silent (test : Context → Char → Bool) : Prop :=
  ∀ context c, Context.inString context = true → (context.next c).inString = true → test context c = false

theorem silent_enters : Silent Context.enters :=
  fun _ _ h _ => by simp [Context.enters, Context.ne_outside_of_inString h]

theorem silent_closes : Silent Context.closes :=
  fun _ _ _ h => Bool.eq_false_iff.mpr fun hc => Context.ne_outside_of_inString h (closes_iff.mp hc).2

/-- What a test records that is silent inside a literal is kept. -/
theorem Steadfast.kept_of_mem_records (ht : Steadfast test back) (hsilent : Silent test) (h : Woven tail context ps) :
    ∀ x ∈ records test back context (source tail ps), kept (renewals ps) x = true := by
  induction h with
  | nil => exact fun _ _ => rfl
  | @cons context p ps hfits hadmits _ _ _ ih =>
    intro x hx
    have hstop := p.nameStart_le_nameStop
    have hreach := p.nameStop_le_reach
    rw [source_cons_split, ht.records_wrap hfits hadmits _ rfl rfl] at hx
    simp only [List.mem_append, List.mem_map] at hx
    rcases hx with hx | ⟨y, hy, rfl⟩ | ⟨y, hy, rfl⟩ | ⟨y, hy, rfl⟩
    · have := lt_of_mem_records hx
      rw [byteLength_append] at this
      have hlt : x < p.nameStart := this
      exact (kept_cons_of_lt (by omega)).mpr (.inl hlt)
    · -- the name is read inside a literal
      have hthrough := @Form.through_write (context.read p.lead) _ _ hadmits
      rw [records, marks_eq_nil, List.map_nil] at hy
      · cases hy
      · intro before c after he
        refine hsilent _ c (hthrough _ (he ▸ List.prefix_append _ _)) ?_
        have := hthrough (before ++ [c]) (he ▸ ⟨after, by simp⟩)
        simpa using this
    · have hlt := lt_of_mem_records hy
      have hlast : y + p.nameStop < p.reach := by
        unfold reach
        omega
      exact (kept_cons_of_lt hlast).mpr (.inr (Nat.le_add_left _ _))
    · exact (kept_behind p ps y).trans (ih y hy)

theorem Woven.read_target (h : Woven tail context ps) (hplain : ∀ p ∈ ps, p.Plain) :
    context.read (target tail ps) = context.read (source tail ps) := by
  induction h with
  | nil => rfl
  | @cons context p ps hfits hadmits _ _ _ ih =>
    obtain ⟨hp, hps⟩ := List.forall_mem_cons.mp hplain
    simp only [source_cons, target_cons, Form.rewrap, hp.1, if_true, Context.read_append,
      Form.read_wrap hfits hadmits, Form.read_wrap hfits hp.1, ih hps]

theorem Woven.filled (h : Woven tail context ps) : Filled ps := by
  induction h with
  | nil => exact fun _ h => absurd h List.not_mem_nil
  | @cons context p ps _ _ hne _ _ ih =>
    refine List.forall_mem_cons.mpr ⟨?_, ih⟩
    have := byteLength_pos (@Form.write_ne_nil p.form _ hne)
    exact Nat.lt_add_of_pos_right this

theorem marks_eq_records (test : Context → Char → Bool) (context : Context) (text : List Char) :
    marks test context 0 text = records test 0 context text :=
  (List.map_id _).symm

/-- What a silent test holds of moves with the text. -/
theorem Steadfast.marks_target (ht : Steadfast test 0) (hsilent : Silent test) (h : Woven tail context ps)
    (hplain : ∀ p ∈ ps, p.Plain) (htoken : ∀ p ∈ ps, ∀ c ∈ p.new, isTokenChar c = true) :
    marks test context 0 (target tail ps) = (marks test context 0 (source tail ps)).map (moved (renewals ps)) := by
  rw [marks_eq_records, marks_eq_records, ht.records_target h hplain htoken, image,
    List.filter_eq_self.mpr (ht.kept_of_mem_records hsilent h)]

/-- The literals of the text with the new names are those of the text, their ends where these have gone. -/
theorem Woven.literals_target (h : Woven tail .outside ps) (hplain : ∀ p ∈ ps, p.Plain)
    (htoken : ∀ p ∈ ps, ∀ c ∈ p.new, isTokenChar c = true) :
    literalSpans .outside 0 0 (target tail ps) = (literalSpans .outside 0 0 (source tail ps)).map fun span =>
      ⟨moved (renewals ps) span.start, moved (renewals ps) span.stop⟩ := by
  have hstarts : ((marks Context.enters .outside 0 (source tail ps)).map (moved (renewals ps))).map (· + 1) =
      ((marks Context.enters .outside 0 (source tail ps)).map (· + 1)).map (moved (renewals ps)) := by
    rw [List.map_map, List.map_map]
    refine List.map_congr_left fun x hx => (moved_succ h.filled ?_).symm
    rw [marks_eq_records] at hx
    exact steadfast_enters.kept_of_mem_records silent_enters h x hx
  have hend : (if (Context.outside.read (target tail ps)).isInside then [0 + byteLength (target tail ps)] else []) =
      (if (Context.outside.read (source tail ps)).isInside then [0 + byteLength (source tail ps)] else []).map
        (moved (renewals ps)) := by
    rw [h.read_target hplain]
    split
    · simp only [Nat.zero_add, List.map_cons, List.map_nil, moved_byteLength h.filled hplain]
    · rfl
  have hnone : Context.outside.isInside = false := rfl
  rw [literalSpans_eq, literalSpans_eq, steadfast_enters.marks_target silent_enters h hplain htoken,
    steadfast_closes.marks_target silent_closes h hplain htoken, hstarts, hend]
  simp only [hnone, Bool.false_eq_true, if_false, List.nil_append]
  rw [← List.map_append, List.zip_map, List.map_map, List.map_map]
  rfl

/-- No edit holds an end of a literal. -/
theorem Woven.clear_literal (h : Woven tail .outside ps) {span : Span}
    (hspan : span ∈ literalSpans .outside 0 0 (source tail ps)) :
    Clear (renewals ps) span.start ∧ Clear (renewals ps) span.stop := by
  rw [literalSpans_eq] at hspan
  obtain ⟨⟨start, stop⟩, hends, rfl⟩ := List.mem_map.mp hspan
  obtain ⟨hstart, hstop⟩ := List.of_mem_zip hends
  constructor
  · obtain ⟨x, hx, rfl⟩ := List.mem_map.mp hstart
    rw [marks_eq_records] at hx
    exact clear_succ (steadfast_enters.kept_of_mem_records silent_enters h x hx)
  · rcases List.mem_append.mp hstop with hx | hx
    · rw [marks_eq_records] at hx
      exact clear_of_kept (steadfast_closes.kept_of_mem_records silent_closes h stop hx)
    · split at hx
      · rw [List.mem_singleton.mp hx, Nat.zero_add]
        exact clear_byteLength tail ps
      · cases hx

end Records

/-! ## The view of a tokenized text -/

namespace QuoteMap

/-- How a text is read once it is edited. What is kept stands where it has gone, and what is put in where the edit was;
    the openers that are kept open there, the literals reach from where they started to where they stopped, a
    position that is kept is to the queries what it was, and in what is put in nothing opens. -/
structure View (edits : List (Span × List Char)) (text text' : List Char) : Prop where
  chars : ∀ pos c, kept edits pos = true → StandsAt text c pos → StandsAt text' c (moved edits pos)
  inserted : ∀ edit ∈ edits, ∃ front back, text' = front ++ (edit.2 ++ back) ∧
    moved edits edit.1.start = byteLength front
  strings : (lex text').strings.toList = image edits (lex text).strings.toList
  escaped : (lex text').escaped.toList = image edits (lex text).escaped.toList
  single : (lex text').single.toList = image edits (lex text).single.toList
  literals : (lex text').literals.toList = (lex text).literals.toList.map fun span =>
    ⟨moved edits span.start, moved edits span.stop⟩
  opensString : ∀ pos, kept edits pos = true → (lex text').opensString (moved edits pos) = (lex text).opensString pos
  opensEscaped : ∀ pos, kept edits pos = true →
    (lex text').opensEscaped (moved edits pos) = (lex text).opensEscaped pos
  opensSingle : ∀ pos, kept edits pos = true → (lex text').opensSingle (moved edits pos) = (lex text).opensSingle pos
  inLiteral : ∀ pos, kept edits pos = true → (lex text').inLiteral (moved edits pos) = (lex text).inLiteral pos
  quiet : ∀ edit ∈ edits, ∀ pos, moved edits edit.1.start ≤ pos →
    pos < moved edits edit.1.start + byteLength edit.2 →
      (lex text').opensString pos = false ∧ (lex text').opensEscaped pos = false ∧ (lex text').opensSingle pos = false

/-- Where no end of a literal is inside an edit, a kept position is in a literal where it has gone if it was in it. -/
theorem inLiteral_moved {map map' : QuoteMap} {ps : List Passage} {pos : Nat} (hmap : map.Ordered)
    (hmap' : map'.Ordered) (hfilled : Filled ps) (hliterals : map'.literals.toList = map.literals.toList.map fun span =>
      ⟨moved (renewals ps) span.start, moved (renewals ps) span.stop⟩)
    (hclear : ∀ span ∈ map.literals.toList, Clear (renewals ps) span.start ∧ Clear (renewals ps) span.stop)
    (hkept : kept (renewals ps) pos = true) : map'.inLiteral (moved (renewals ps) pos) = map.inLiteral pos := by
  have hsame : ∀ span ∈ map.literals.toList,
      (moved (renewals ps) span.start ≤ moved (renewals ps) pos ∧
        moved (renewals ps) pos < moved (renewals ps) span.stop ↔ span.start ≤ pos ∧ pos < span.stop) := by
    intro span hspan
    obtain ⟨hstart, hstop⟩ := hclear span hspan
    refine and_congr ⟨fun hle => ?_, moved_le_moved hstart (clear_of_kept hkept)⟩
      ⟨fun hlt => ?_, moved_lt_moved hfilled hkept hstop⟩
    · by_contra hnot
      have := moved_lt_moved hfilled hkept hstart (Nat.lt_of_not_le hnot)
      omega
    · by_contra hnot
      have := moved_le_moved hstop (clear_of_kept hkept) (Nat.le_of_not_lt hnot)
      omega
  rw [Bool.eq_iff_iff, hmap'.inLiteral_iff_exists, hmap.inLiteral_iff_exists, hliterals]
  constructor
  · rintro ⟨_, hmem, hcontains⟩
    obtain ⟨span, hspan, rfl⟩ := List.mem_map.mp hmem
    exact ⟨span, hspan, contains_iff.mpr ((hsame span hspan).mp (contains_iff.mp hcontains))⟩
  · rintro ⟨span, hspan, hcontains⟩
    exact ⟨_, List.mem_map_of_mem hspan, contains_iff.mpr ((hsame span hspan).mpr (contains_iff.mp hcontains))⟩

/-- A layout whose names become tokens is read as before. -/
theorem view_target {ps : List Passage} {tail : List Char} (h : Woven tail .outside ps) (hplain : ∀ p ∈ ps, p.Plain)
    (htoken : ∀ p ∈ ps, ∀ c ∈ p.new, isTokenChar c = true) :
    View (renewals ps) (source tail ps) (target tail ps) := by
  have hfilled := h.filled
  have hordered := ordered_lex (source tail ps)
  have hordered' := ordered_lex (target tail ps)
  have hstrings : (lex (target tail ps)).strings.toList =
      image (renewals ps) (lex (source tail ps)).strings.toList := by
    rw [strings_lex, strings_lex, marks_eq_records, marks_eq_records]
    exact steadfast_opensString.records_target h hplain htoken
  have hescaped : (lex (target tail ps)).escaped.toList =
      image (renewals ps) (lex (source tail ps)).escaped.toList := by
    rw [escaped_lex, escaped_lex]
    exact steadfast_opensEscaped.records_target h hplain htoken
  have hsingle : (lex (target tail ps)).single.toList = image (renewals ps) (lex (source tail ps)).single.toList := by
    rw [single_lex, single_lex, marks_eq_records, marks_eq_records]
    exact steadfast_opensSingle.records_target h hplain htoken
  have hliterals : (lex (target tail ps)).literals.toList = (lex (source tail ps)).literals.toList.map fun span =>
      ⟨moved (renewals ps) span.start, moved (renewals ps) span.stop⟩ := by
    rw [literals_lex, literals_lex]
    exact h.literals_target hplain htoken
  exact {
    chars := fun _ _ hkept hstands => standsAt_moved hplain hkept hstands
    inserted := fun _ hedit => exists_inserted hfilled hplain hedit
    strings := hstrings
    escaped := hescaped
    single := hsingle
    literals := hliterals
    opensString := fun pos hkept => by
      rw [Bool.eq_iff_iff, hordered'.opensString_iff, hordered.opensString_iff, hstrings, mem_image_iff hfilled hkept]
    opensEscaped := fun pos hkept => by
      rw [Bool.eq_iff_iff, hordered'.opensEscaped_iff, hordered.opensEscaped_iff, hescaped,
        mem_image_iff hfilled hkept]
    opensSingle := fun pos hkept => by
      rw [Bool.eq_iff_iff, hordered'.opensSingle_iff, hordered.opensSingle_iff, hsingle, mem_image_iff hfilled hkept]
    inLiteral := fun pos hkept =>
      inLiteral_moved hordered hordered' hfilled hliterals
        (by rw [literals_lex]; exact fun span hspan => h.clear_literal hspan) hkept
    quiet := fun edit hedit pos hstart hstop => by
      have hnot {xs : List Nat} := @not_mem_image ps pos xs hfilled edit hedit hstart hstop
      simp only [Bool.eq_false_iff, ne_eq, hordered'.opensString_iff, hordered'.opensEscaped_iff,
        hordered'.opensSingle_iff, hstrings, hescaped, hsingle]
      exact ⟨hnot, hnot, hnot⟩ }

end QuoteMap

/-- Tokenizing moves no quote: in a text that nests its single quotes the names that are replaced, however they are
    written, leave the lexer where their tokens leave it. So the view of the tokenized text is that of the text, with
    every position moved by the edits before it, and inside the tokens nothing opens. -/
theorem lex_tokenize (specText : String) (registry : Registry) (isRemap : Bool)
    (hn : Context.outside.nests specText.toList = true) :
    QuoteMap.View (Tokenize.edits { specText, trackedFields := registry, isRemap }) specText.toList
      (tokenize { specText, trackedFields := registry, isRemap }).toList := by
  obtain ⟨ps, tail, h⟩ := exists_redirected (tokenSuffixes isRemap) registry.renames hn
  have htoken : ∀ p ∈ ps, (∀ c ∈ p.new, isTokenChar c = true) ∧ p.Plain := by
    intro p hp
    obtain ⟨token, _, ending, _, hending, _, hnew⟩ :=
      Tokenized.exists_token_of_redirected h (tokenSuffixes_sub isRemap) hp
    have hchars : ∀ c ∈ p.new, isTokenChar c = true := hnew ▸ Placeholder.isTokenChar_of_mem_append hending
    refine ⟨hchars, ?_, p.form.write_of_isTokenChar hchars⟩
    rw [hnew, Placeholder.chars_eq_cons, List.cons_append] at hchars ⊢
    exact p.form.admits_of_isTokenChar hchars
  have hplain : ∀ p ∈ ps, p.Plain := fun p hp => (htoken p hp).2
  have hedits : Tokenize.edits { specText, trackedFields := registry, isRemap } = renewals ps := by
    have hredirected := h.edits_eq
    rw [map_redirect_located hplain, shifted_zero, List.map_id] at hredirected
    rw [Tokenize.edits_eq]
    exact hredirected
  rw [hedits, toList_tokenize, h.splice_eq, ← h.source_eq]
  exact QuoteMap.view_target h.woven hplain fun p hp => (htoken p hp).1

/-- An apostrophe in a name opens a string, and goes with the name. -/
theorem lex_tokenize_apostrophe :
    let specText := "[\"it's\",\"datum['it\\\\'s'] + \\\"it's\\\"\"]"
    let registry := (track { specText, knownFields := [⟨"a", "it's", .numeric, .measure, false⟩] }).trackedFields
    Context.outside.nests specText.toList = true ∧
      QuoteMap.View (Tokenize.edits { specText, trackedFields := registry, isRemap := true }) specText.toList
        (tokenize { specText, trackedFields := registry, isRemap := true }).toList :=
  ⟨by decide, lex_tokenize _ _ true (by decide)⟩

end FieldRemap
