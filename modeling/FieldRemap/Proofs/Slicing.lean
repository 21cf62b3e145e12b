/-
  FieldRemap.Proofs.Slicing — every edit of a text cuts it between characters.

  A slice of a text is refused where it descends, ends behind the text or parts a character
  (`slice?`). A reference redirected to a quoted bracket takes its dot with it, but the name
  written before it has ended by then: what closes that name, or the dot itself, stands between
  them (`stop_ne_start_of_accessor`). So for any names, suffixes and conventions the edits ascend
  without overlap, and splicing them by slices is refused nowhere (`splice_in_range`).
-/

import FieldRemap.Proofs.Substitution

namespace FieldRemap

open Retarget

/-! ## Slices -/

/-- The text parted after so many bytes, unless that is inside a character or behind the end. -/
def cut? (bytes : Nat) : List Char → Option (List Char × List Char)
  | [] => if bytes = 0 then some ([], []) else none
  | c :: rest =>
    if bytes = 0 then some ([], c :: rest)
    else if bytes < c.utf8Size then none
    else (cut? (bytes - c.utf8Size) rest).map fun parts => (c :: parts.1, parts.2)

def slice? (text : List Char) (start stop : Nat) : Option (List Char) :=
  if stop < start then none
  else (cut? start text).bind fun parts => (cut? (stop - start) parts.2).map (·.1)

/-- The text from `cursor` on with spans replaced, what stands before, between and behind them being
    sliced out. -/
def spliceFrom? (text : List Char) (cursor : Nat) : List (Span × List Char) → Option (List Char)
  | [] => slice? text cursor (byteLength text)
  | (span, replacement) :: edits =>
    (slice? text cursor span.start).bind fun kept =>
      (spliceFrom? text span.stop edits).map fun rest => kept ++ (replacement ++ rest)

theorem cut?_append (a b : List Char) : cut? (byteLength a) (a ++ b) = some (a, b) := by
  induction a with
  | nil => cases b <;> rfl
  | cons c a ih =>
    have hc := c.utf8Size_pos
    rw [List.cons_append, byteLength_cons, cut?, if_neg (by omega), if_neg (by omega), Nat.add_sub_cancel_left, ih]
    rfl

/-- The text is parted only between characters. -/
theorem of_cut?_eq_some {bytes : Nat} {text a b : List Char} (h : cut? bytes text = some (a, b)) :
    text = a ++ b ∧ bytes = byteLength a := by
  induction text generalizing bytes a with
  | nil =>
    obtain ⟨hbytes, hparts⟩ := Option.ite_none_right_eq_some.mp h
    cases hparts
    exact ⟨rfl, hbytes⟩
  | cons c text ih =>
    unfold cut? at h
    split at h
    · next hbytes =>
      cases h
      exact ⟨rfl, hbytes⟩
    · split at h
      · cases h
      · next hle =>
        obtain ⟨⟨a, b⟩, hcut, hparts⟩ := Option.map_eq_some_iff.mp h
        obtain ⟨rfl, rfl⟩ := Prod.mk.inj hparts
        obtain ⟨htext, hbytes⟩ := ih hcut
        exact ⟨by rw [htext, List.cons_append], by simp only [byteLength_cons]; omega⟩

theorem cut?_eq_some_iff {bytes : Nat} {text a b : List Char} :
    cut? bytes text = some (a, b) ↔ text = a ++ b ∧ bytes = byteLength a := by
  refine ⟨of_cut?_eq_some, ?_⟩
  rintro ⟨rfl, rfl⟩
  exact cut?_append a b

/-- What is sliced out stands in the text between the two positions. -/
theorem slice?_eq_some_iff {text part : List Char} {start stop : Nat} :
    slice? text start stop = some part ↔ ∃ front back, text = front ++ (part ++ back) ∧
      start = byteLength front ∧ stop = byteLength front + byteLength part := by
  unfold slice?
  split
  · next hlt =>
    simp only [reduceCtorEq, false_iff, not_exists, not_and]
    rintro front back - rfl
    omega
  · next hle =>
    simp only [Option.bind_eq_some_iff, Option.map_eq_some_iff, Prod.exists, cut?_eq_some_iff]
    constructor
    · rintro ⟨front, _, ⟨rfl, rfl⟩, part, back, ⟨rfl, hpart⟩, rfl⟩
      exact ⟨front, back, rfl, rfl, by omega⟩
    · rintro ⟨front, back, rfl, rfl, rfl⟩
      exact ⟨front, _, ⟨rfl, rfl⟩, part, back, ⟨rfl, by omega⟩, rfl⟩

/-- Where stretches part the text every slice between them is one. -/
theorem spliceFrom?_edits (done tail : List Char) (xs : List Replacement) :
    spliceFrom? (done ++ Replacement.source tail xs) (byteLength done) (Replacement.edits (byteLength done) xs) =
      some (Replacement.target tail xs) := by
  induction xs generalizing done with
  | nil => exact slice?_eq_some_iff.mpr ⟨done, [], by simp [Replacement.source, Replacement.target]⟩
  | cons x xs ih =>
    have hkept : slice? (done ++ Replacement.source tail (x :: xs)) (byteLength done)
        (byteLength done + byteLength x.kept) = some x.kept :=
      slice?_eq_some_iff.mpr ⟨done, x.old ++ Replacement.source tail xs, rfl, rfl, rfl⟩
    have ih := ih (done ++ (x.kept ++ x.old))
    simp only [byteLength_append, List.append_assoc, ← Nat.add_assoc] at ih
    simp only [Replacement.edits, spliceFrom?, hkept, Option.bind_some]
    simp only [Replacement.source, ih, Option.map_some, Replacement.target]

/-! ## References that follow each other -/

variable {text name name' : List Char} {r r' : Reference}

/-- What stands behind a name is no part of an identifier, unless the name is an accessor. -/
theorem Form.not_isIdentifierPart_of_closer {form : Form} {c : Char} {rest rest' : List Char} (hform : form ≠ .accessor)
    (h : form.closer ++ rest = c :: rest') : isIdentifierPart c = false := by
  have hclosers : ∀ c ∈ ['"', '\\', '\'', ']'], isIdentifierPart c = false := forall_mem_of_all (by decide)
  cases form with
  | accessor => exact absurd rfl hform
  | string | escaped | single | bracket =>
    obtain ⟨rfl, -⟩ := List.cons.inj h
    exact hclosers _ (by simp)

/-- No name ends where that of an accessor starts: the dot would be its last character, and what closes it the
    first of the accessor's. -/
theorem stop_ne_start_of_accessor (hr : r ∈ findReferences name (QuoteMap.lex text) text)
    (hr' : r' ∈ findReferences name' (QuoteMap.lex text) text) (hform' : r'.form = .accessor) :
    r.span.stop ≠ r'.span.start := by
  intro hstop
  obtain ⟨hadmits, before, rest, hfound⟩ := exists_isFound hr
  obtain ⟨hadmits', before', rest', hfound'⟩ := exists_isFound hr'
  have hne : name ≠ [] := by
    rintro rfl
    cases hr
  have htext := hfound.text_eq
  have htext' := hfound'.text_eq
  have hspan := hfound.span_eq
  have hspan' := hfound'.span_eq
  rw [hform'] at hadmits' htext' hspan'
  -- the text up to the place, seen from both sides
  have hfront : before ++ (r.form.opener ++ r.form.write name) = before' ++ ['.'] := by
    refine @eq_of_byteLength_eq _ _ text ⟨r.form.closer ++ rest, ?_⟩ ⟨name' ++ rest', ?_⟩ ?_
    · simp [htext]
    · simp [htext', Form.opener, Form.write, Form.closer]
    · have := hspan ▸ hspan' ▸ hstop
      simpa [Form.opener, Nat.add_assoc] using this
  obtain ⟨c, written, hname'⟩ := List.exists_cons_of_ne_nil (l := name') (by rintro rfl; cases hadmits')
  have hbehind : r.form.closer ++ rest = c :: (written ++ rest') := by
    have he := htext.symm.trans htext'
    have hsplit : before ++ (r.form.opener ++ (r.form.write name ++ (r.form.closer ++ rest))) =
        (before ++ (r.form.opener ++ r.form.write name)) ++ (r.form.closer ++ rest) := by simp
    rw [hsplit, hfront] at he
    simpa [Form.opener, Form.write, Form.closer, hname'] using he
  by_cases hform : r.form = .accessor
  · -- an accessor's name holds no dot
    rw [hform] at hadmits hfront
    obtain ⟨front, d, rfl⟩ := List.eq_nil_or_concat name |>.resolve_left hne
    have hdot : d = '.' := by
      have := congrArg List.getLast? hfront
      simpa [Form.write] using this
    have hpart := Form.isIdentifierPart_of_mem hadmits (c := d) (by simp)
    exact Form.ne_of_isIdentifierPart hpart (by decide) hdot
  · have hpart : isIdentifierPart c = true := Form.isIdentifierPart_of_mem hadmits' (by simp [hname'])
    rw [Form.not_isIdentifierPart_of_closer hform hbehind] at hpart
    cases hpart

/-- A redirected reference starts no later than the reference. -/
theorem Reference.redirect_start_le (r : Reference) (new : List Char) : (r.redirect new).1.start ≤ r.span.start := by
  unfold redirect
  split
  · exact Nat.le_refl _
  · split
    · exact Nat.sub_le _ _
    · exact Nat.le_refl _

/-- A reference that starts behind a name starts behind it also when it is redirected. -/
theorem stop_le_start_redirect (hr : r ∈ findReferences name (QuoteMap.lex text) text)
    (hr' : r' ∈ findReferences name' (QuoteMap.lex text) text) (h : r.span.stop ≤ r'.span.start) (new : List Char) :
    r.span.stop ≤ (r'.redirect new).1.start := by
  unfold Reference.redirect
  split
  · exact h
  · split
    · next hform =>
      have := stop_ne_start_of_accessor hr hr' hform
      simp only
      omega
    · exact h

/-! ## The edits -/

/-- The edits replace stretches of the text, each between two of its characters and none of them empty, and ascend
    without overlap. Splicing them by slices is refused nowhere and gives the result, which keeps what stands between
    the stretches. -/
structure InRange (text : List Char) (edits : List (Span × List Char)) (result : List Char) : Prop where
  nonempty : ∀ edit ∈ edits, edit.1.start < edit.1.stop
  cuts : ∀ edit ∈ edits, edit.1.Cuts text
  ascending : edits.Pairwise fun a b => a.1.stop ≤ b.1.start
  spliced : spliceFrom? text 0 edits = some result
  kept : ∃ xs tail, Replacement.source tail xs = text ∧ Replacement.edits 0 xs = edits ∧
    Replacement.target tail xs = result

/-- Edits that ascend without overlap, between characters, are in range. -/
theorem InRange.of_ascending {edits : List (Span × List Char)}
    (hnonempty : ∀ edit ∈ edits, edit.1.start < edit.1.stop) (hcuts : ∀ edit ∈ edits, edit.1.Cuts text)
    (hascending : edits.Pairwise fun a b => a.1.stop ≤ b.1.start) : InRange text edits (splice text edits) := by
  obtain ⟨xs, tail, hsource, htarget, hedits⟩ := exists_splice hcuts hascending
  refine ⟨hnonempty, hcuts, hascending, ?_, xs, tail, hsource, hedits, htarget⟩
  have hspliced := spliceFrom?_edits [] tail xs
  rw [List.nil_append, byteLength_nil, hsource, hedits, htarget] at hspliced
  exact hspliced

/-- The edit of a winner: its reference is found in the text, and it takes the candidate's span. -/
theorem Retarget.exists_of_mem_gather {suffixes : List String} {renames : List (String × String)}
    {c : Candidate Retarget} (hc : c ∈ gather (QuoteMap.lex text) text suffixes renames) :
    ∃ name, c.value.1 ∈ findReferences name (QuoteMap.lex text) text ∧ c.value.1.span = c.span := by
  obtain ⟨rename, -, ending, -, -, r, hr, rfl⟩ := mem_gather.mp hc
  exact ⟨_, hr, rfl⟩

/-- Whatever names are redirected to what, the edits are in range. -/
theorem inRange_edits (text : List Char) (suffixes : List String) (renames : List (String × String)) :
    let edits := Retarget.edits (gather (QuoteMap.lex text) text suffixes renames)
    InRange text edits (splice text edits) := by
  intro edits
  have found {c : Candidate Retarget}
      (hc : c ∈ Candidate.arbitrate (gather (QuoteMap.lex text) text suffixes renames)) :
      ∃ name, c.value.1 ∈ findReferences name (QuoteMap.lex text) text ∧ c.value.1.span = c.span :=
    exists_of_mem_gather (Candidate.mem_of_mem_arbitrate hc)
  refine InRange.of_ascending (fun edit hedit => ?_) (fun edit hedit => ?_) ?_
  · obtain ⟨c, hc, rfl⟩ := List.mem_map.mp hedit
    obtain ⟨name, hr, -⟩ := found hc
    have hspan := (bounds_of_mem_findReferences hr).1
    have := c.value.1.redirect_start_le c.value.2.toList
    rw [(c.value.1.redirect_bounds c.value.2.toList).1]
    omega
  · obtain ⟨c, hc, rfl⟩ := List.mem_map.mp hedit
    obtain ⟨name, hr, -⟩ := found hc
    exact cuts_redirect hr _
  · have hspans : ∀ c ∈ gather (QuoteMap.lex text) text suffixes renames, c.span.start < c.span.stop := by
      intro c hc
      obtain ⟨name, hr, hspan⟩ := exists_of_mem_gather hc
      rw [← hspan]
      exact (bounds_of_mem_findReferences hr).1
    refine List.pairwise_map.mpr ((Candidate.pairwise_arbitrate hspans).imp_of_mem fun {a b} ha hb hab => ?_)
    obtain ⟨name, hr, hspan⟩ := found ha
    obtain ⟨name', hr', hspan'⟩ := found hb
    rw [← hspan, ← hspan'] at hab
    rw [(a.value.1.redirect_bounds a.value.2.toList).1]
    exact stop_le_start_redirect hr hr' hab _

/-- Tokenizing a text, in either mode, and filling one cut it only between characters, at places that ascend,
    whatever the registry, the slots and the conventions are: no slice is refused, and what stands between the
    edits is kept. -/
theorem splice_in_range :
    (∀ request : TokenizationRequest,
      InRange request.specText.toList (Tokenize.edits request) (tokenize request).toList) ∧
    ∀ request : RemappingRequest,
      InRange request.tokenizedSpecText.toList (Remap.edits request) (remap request).toList := by
  constructor
  · intro request
    rw [tokenize, String.toList_ofList, Tokenize.edits_eq]
    exact inRange_edits ..
  · intro request
    rw [remap, String.toList_ofList, Remap.edits_eq]
    exact inRange_edits ..

end FieldRemap
