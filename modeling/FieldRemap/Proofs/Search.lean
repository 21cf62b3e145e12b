/-
  FieldRemap.Proofs.Search — what the search for a name finds.

  In a text that nests its single quotes the search for a name reports exactly the mentions of
  the name (`mem_findReferences`), each once and in ascending order (`pairwise_findReferences`).
  What is passed over behind a reference holds none: two mentions of one name do not overlap.
-/

import FieldRemap.Proofs.Mention

namespace FieldRemap

namespace Form

theorem open?_eq_some {form : Form} {text rest : List Char} :
    open? text = some (form, rest) ↔ text = form.opener ++ rest := by
  constructor
  · intro h
    unfold open? at h
    split at h
    · cases h; rfl
    · cases h; rfl
    · cases h; rfl
    · cases h; rfl
    · cases h; rfl
    · cases h
  · intro he
    subst he
    cases form <;> rfl

end Form

namespace NamePattern

theorem any_dropLeading {form : Form} {part text : List Char} :
    (dropLeading part text).any form.closes = true ↔ ∃ rest, text = part ++ (form.closer ++ rest) ∧
      (form = .accessor → Form.endsAccessor rest = true) := by
  rw [Option.any_eq_true]
  constructor
  · intro h
    obtain ⟨behind, hb, hc⟩ := h
    obtain ⟨rest, rfl, hends⟩ := Form.closes_iff.mp hc
    exact ⟨rest, dropLeading_eq_some.mp hb, hends⟩
  · intro h
    obtain ⟨rest, rfl, hends⟩ := h
    exact ⟨_, dropLeading_eq_some.mpr rfl, Form.closes_iff.mpr ⟨rest, rfl, hends⟩⟩

/-- What a search for one name matches at a place. -/
theorem matchAt?_literal {name text written : List Char} {form : Form} :
    (literal name).matchAt? text = some (form, written) ↔ form.admits name = true ∧ written = form.write name ∧
      ∃ rest, text = form.wrap name ++ rest ∧ (form = .accessor → Form.endsAccessor rest = true) := by
  simp only [matchAt?, Option.bind_eq_some_iff, Option.map_eq_some_iff, Prod.exists, Prod.mk.injEq, nameAt?,
    Option.ite_none_right_eq_some, Bool.and_eq_true, any_dropLeading, Option.some.injEq]
  constructor
  · intro h
    obtain ⟨form', behind, hopen, written', ⟨⟨ha, rest, rfl, hends⟩, rfl⟩, rfl, rfl⟩ := h
    exact ⟨ha, rfl, rest, by simp [Form.open?_eq_some.mp hopen, Form.wrap], hends⟩
  · intro h
    obtain ⟨ha, rfl, rest, rfl, hends⟩ := h
    exact ⟨form, form.write name ++ (form.closer ++ rest), Form.open?_eq_some.mpr (by simp [Form.wrap]), _,
      ⟨⟨ha, rest, rfl, hends⟩, rfl⟩, rfl, rfl⟩

/-- What a search finds is matched where it stands, and the quotes let its form open there. -/
theorem exists_match_of_mem_searchFrom {pattern : NamePattern} {done text : List Char} {quotes : QuoteMap}
    {resume : Nat} {r : Reference} (h : r ∈ pattern.searchFrom quotes (byteLength done) resume text) :
    ∃ before behind written, done ++ text = before ++ behind ∧ pattern.matchAt? behind = some (r.form, written) ∧
      r.span = ⟨byteLength before + byteLength r.form.opener,
        byteLength before + byteLength r.form.opener + byteLength written⟩ ∧
      r.form.isBounded quotes (byteLength before) = true := by
  induction text generalizing done resume with
  | nil => cases h
  | cons c text ih =>
    have hstep : done ++ c :: text = (done ++ [c]) ++ text := by simp
    have hsize : byteLength (done ++ [c]) = byteLength done + c.utf8Size := by simp
    unfold searchFrom at h
    rw [← hsize] at h
    split at h
    · rw [hstep]
      exact ih h
    · split at h
      · next form written hm =>
        split at h
        · next hbounded =>
          rcases List.mem_cons.mp h with rfl | h
          · exact ⟨done, _, written, rfl, hm, rfl, hbounded⟩
          · rw [hstep]
            exact ih h
        · rw [hstep]
          exact ih h
      · rw [hstep]
        exact ih h

end NamePattern

/-- What is found is the name between the delimiters of its form, where the quotes let the form open. -/
theorem exists_of_mem_findReferences {name text : List Char} {quotes : QuoteMap} {r : Reference}
    (h : r ∈ findReferences name quotes text) :
    r.form.admits name = true ∧ ∃ before rest, text = before ++ (r.form.wrap name ++ rest) ∧
      r.span = ⟨byteLength before + byteLength r.form.opener,
        byteLength before + byteLength r.form.opener + byteLength (r.form.write name)⟩ ∧
      r.form.isBounded quotes (byteLength before) = true ∧ (r.form = .accessor → Form.endsAccessor rest = true) := by
  unfold findReferences at h
  split at h
  · cases h
  · obtain ⟨before, behind, written, rfl, hmatch, hspan, hbounded⟩ :=
      @NamePattern.exists_match_of_mem_searchFrom (.literal name) [] text quotes 0 r h
    obtain ⟨hadmits, rfl, rest, rfl, hends⟩ := NamePattern.matchAt?_literal.mp hmatch
    exact ⟨hadmits, before, rest, rfl, hspan, hbounded, hends⟩

namespace Mention

theorem wrap_append (form : Form) (name rest : List Char) :
    form.wrap name ++ rest = form.opener ++ (form.write name ++ form.closer ++ rest) := by
  simp [Form.wrap]

theorem isBounded_wrap_iff {form : Form} {name before rest : List Char} :
    form.isBounded (QuoteMap.lex (before ++ (form.wrap name ++ rest))) (byteLength before) = true ↔
      form.MayOpen (Context.outside.read before) := by
  rw [wrap_append]
  exact Form.isBounded_iff

theorem isBounded_wrap {form : Form} {name before rest : List Char}
    (hn : Context.outside.nests (before ++ (form.wrap name ++ rest)) = true) :
    form.isBounded (QuoteMap.lex (before ++ (form.wrap name ++ rest))) (byteLength before) =
      form.fits (Context.outside.read before) := by
  rw [wrap_append] at hn ⊢
  exact form.isBounded_lex hn

/-- Where the search matches and the quotes allow it, the name is mentioned. -/
theorem exists_of_match {name done text written : List Char} {form : Form}
    (hn : Context.outside.nests (done ++ text) = true) (hne : name ≠ [])
    (hm : (NamePattern.literal name).matchAt? text = some (form, written))
    (hb : form.isBounded (QuoteMap.lex (done ++ text)) (byteLength done) = true) :
    written = form.write name ∧
      ∃ m : Mention .outside (done ++ text), m.before = done ∧ m.form = form ∧ m.name = name := by
  obtain ⟨ha, rfl, rest, rfl, hends⟩ := NamePattern.matchAt?_literal.mp hm
  exact ⟨rfl, ⟨done, form, name, rest, rfl, (isBounded_wrap hn).symm.trans hb, ha, hends, hne⟩, rfl, rfl, rfl⟩

theorem match_of_before {done text : List Char} (m : Mention .outside (done ++ text)) (hbefore : m.before = done) :
    (NamePattern.literal m.name).matchAt? text = some (m.form, m.form.write m.name) ∧
      m.form.isBounded (QuoteMap.lex (done ++ text)) (byteLength done) = true := by
  obtain ⟨before, form, name, rest, text_eq, fits, admits, ends, name_ne⟩ := m
  obtain rfl : before = done := hbefore
  have htext : text = form.wrap name ++ rest := List.append_cancel_left text_eq
  subst htext
  exact ⟨NamePattern.matchAt?_literal.mpr ⟨admits, rfl, rest, rfl, ends⟩, isBounded_wrap_iff.mpr (.inl fits)⟩

/-- Behind a mention of a name the next one opens where the name has ended. -/
theorem stop_le_first {context : Context} {text : List Char} {m n : Mention context text}
    (hname : m.name = n.name)
    (h : m.first < n.first) : m.stop ≤ n.first := by
  have := m.stop_le_last
  have := n.stop_le_last
  have := n.first_lt_start
  have := n.start_lt_stop
  rcases m.compare n with h' | h' | h' | h' | h'
  · unfold Precedes at h'; omega
  · unfold Precedes at h'; omega
  · exact absurd hname (ne_of_inside h')
  · exact absurd hname.symm (ne_of_inside h')
  · have := h'.before
    simp only [first, this] at h
    omega

theorem first_ge_of_ne {context : Context} {done text : List Char} {c : Char}
    (m : Mention context (done ++ c :: text)) (hge : byteLength done ≤ m.first) (hne : m.before ≠ done) :
    byteLength (done ++ [c]) ≤ m.first := by
  obtain ⟨d, hd⟩ := prefix_of_byteLength_le (List.prefix_append _ _) m.before_isPrefix hge
  cases d with
  | nil => exact absurd (by simpa using hd.symm) hne
  | cons e d =>
    have he := m.before_isPrefix
    rw [← hd, List.prefix_append_right_inj, List.cons_prefix_cons] at he
    obtain ⟨rfl, _⟩ := he
    simp only [first, ← hd, byteLength_append, byteLength_cons]
    simp only [byteLength_nil]
    omega

end Mention

/-! ## The search -/

/-- The reference is of a mention of the name that opens neither before `near` nor before `resume`. -/
def Reported (name text : List Char) (r : Reference) (near resume : Nat) : Prop :=
  ∃ m : Mention .outside text, m.name = name ∧ m.reference = r ∧ near ≤ m.first ∧ resume ≤ m.first

namespace Reported

variable {name done text : List Char} {c : Char} {r : Reference} {resume : Nat}

/-- Nothing is reported from the end on. -/
theorem not_end : ¬ Reported name done r (byteLength done) resume := by
  intro h
  obtain ⟨m, -, -, hge, -⟩ := h
  have hlen := byteLength_pos (Form.wrap_ne_nil m.form m.name)
  have := congrArg byteLength m.text_eq
  simp only [byteLength_append, Mention.first] at this hge
  omega

/-- Where no mention is reported, the next one opens behind the character. -/
theorem skip
    (hnone : ∀ m : Mention .outside (done ++ c :: text), m.name = name → m.before = done → ¬ resume ≤ m.first) :
    Reported name (done ++ c :: text) r (byteLength (done ++ [c])) resume ↔
      Reported name (done ++ c :: text) r (byteLength done) resume := by
  constructor
  · intro h
    obtain ⟨m, hname, hr, hge, hres⟩ := h
    rw [byteLength_append] at hge
    exact ⟨m, hname, hr, by omega, hres⟩
  · intro h
    obtain ⟨m, hname, hr, hge, hres⟩ := h
    exact ⟨m, hname, hr, m.first_ge_of_ne hge fun hb => hnone m hname hb hres, hres⟩

/-- Behind a mention that is reported the next one opens where its name has ended. -/
theorem take {m : Mention .outside (done ++ c :: text)} (hbefore : m.before = done)
    (hresume : resume ≤ byteLength done) :
    r = m.reference ∨ Reported m.name (done ++ c :: text) r (byteLength (done ++ [c])) m.stop ↔
      Reported m.name (done ++ c :: text) r (byteLength done) resume := by
  have hfirst : m.first = byteLength done := by rw [Mention.first, hbefore]
  constructor
  · intro h
    rcases h with rfl | ⟨n, hname, hr, hge, hres⟩
    · exact ⟨m, rfl, rfl, by omega, by omega⟩
    · rw [byteLength_append] at hge
      exact ⟨n, hname, hr, by omega, by omega⟩
  · intro h
    obtain ⟨n, hname, hr, hge, hres⟩ := h
    by_cases hnb : n.before = done
    · have hmeets := Mention.meets_of_before (hbefore.trans hnb.symm)
      left
      rw [← hr]
      simp only [Mention.reference, Mention.start, Mention.stop, Mention.first, hmeets.before, hmeets.form, hname]
    · have hge := n.first_ge_of_ne hge hnb
      have hpos := c.utf8Size_pos
      have hsize : byteLength (done ++ [c]) = byteLength done + c.utf8Size := by simp
      exact .inr ⟨n, hname, hr, hge, Mention.stop_le_first hname.symm (by omega)⟩

end Reported

namespace NamePattern

variable {name : List Char}

/-- From each place on the search finds the mentions of the name that open behind what is passed over. -/
theorem mem_searchFrom (hne : name ≠ []) {done text : List Char} {resume : Nat}
    (hn : Context.outside.nests (done ++ text) = true) {r : Reference} :
    r ∈ (literal name).searchFrom (QuoteMap.lex (done ++ text)) (byteLength done) resume text ↔
      Reported name (done ++ text) r (byteLength done) resume := by
  induction text generalizing done resume with
  | nil =>
    rw [List.append_nil]
    exact iff_of_false List.not_mem_nil Reported.not_end
  | cons c text ih =>
    have hstep : done ++ c :: text = (done ++ [c]) ++ text := by simp
    have hsize : byteLength (done ++ [c]) = byteLength done + c.utf8Size := by simp
    have hrest (resume' : Nat) : r ∈ (literal name).searchFrom (QuoteMap.lex (done ++ c :: text))
        (byteLength done + c.utf8Size) resume' text ↔
          Reported name (done ++ c :: text) r (byteLength (done ++ [c])) resume' := by
      rw [← hsize, hstep]
      exact ih (by rw [← hstep]; exact hn)
    unfold searchFrom
    split
    · next hlt =>
      rw [hrest]
      apply Reported.skip
      intro m _ hb hres
      rw [Mention.first, hb] at hres
      omega
    · next hge =>
      split
      · next form written hm =>
        by_cases hb : form.isBounded (QuoteMap.lex (done ++ c :: text)) (byteLength done) = true
        · obtain ⟨rfl, m, hbefore, rfl, rfl⟩ := Mention.exists_of_match hn hne hm hb
          have hstart : byteLength done + byteLength m.form.opener = m.start := by
            rw [Mention.start, Mention.first, hbefore]
          rw [if_pos hb, hstart, List.mem_cons, hrest]
          exact Reported.take hbefore (by omega)
        · rw [if_neg hb, hrest]
          apply Reported.skip
          intro n hname hnb _
          obtain ⟨hmatch, hbounded⟩ := Mention.match_of_before n hnb
          rw [hname, hm] at hmatch
          simp only [Option.some.injEq, Prod.mk.injEq] at hmatch
          exact hb (hmatch.1 ▸ hbounded)
      · next hm =>
        rw [hrest]
        apply Reported.skip
        intro n hname hnb _
        have hmatch := (Mention.match_of_before n hnb).1
        rw [hname, hm] at hmatch
        cases hmatch

/-- The search finds what is matched at a place, unless it passes over that place. -/
theorem mem_searchFrom_of_match {form : Form} {pattern : NamePattern} {quotes : QuoteMap}
    {done front behind written : List Char} {resume : Nat} (hmatch : pattern.matchAt? behind = some (form, written))
    (hbounded : form.isBounded quotes (byteLength (done ++ front)) = true)
    (hresume : resume ≤ byteLength (done ++ front))
    (hpass : ∀ before between form' written', front = before ++ between → between ≠ [] →
      pattern.matchAt? (between ++ behind) = some (form', written') →
      form'.isBounded quotes (byteLength (done ++ before)) = true →
      byteLength (done ++ before) + byteLength form'.opener + byteLength written' ≤ byteLength (done ++ front)) :
    ⟨⟨byteLength (done ++ front) + byteLength form.opener,
      byteLength (done ++ front) + byteLength form.opener + byteLength written⟩, form⟩ ∈
        pattern.searchFrom quotes (byteLength done) resume (front ++ behind) := by
  induction front generalizing done resume with
  | nil =>
    rw [List.append_nil] at hbounded hresume ⊢
    cases behind with
    | nil => cases hmatch
    | cons c behind =>
      rw [List.nil_append, searchFrom, if_neg (by omega), hmatch]
      simp only [if_pos hbounded]
      exact List.mem_cons_self
  | cons c front ih =>
    have hstep : done ++ c :: front = (done ++ [c]) ++ front := by simp
    have hsize : byteLength done + c.utf8Size = byteLength (done ++ [c]) := by simp
    rw [hstep] at hbounded hresume hpass ⊢
    have behind' {resume' : Nat} (hresume' : resume' ≤ byteLength ((done ++ [c]) ++ front)) :
        ⟨⟨byteLength ((done ++ [c]) ++ front) + byteLength form.opener,
          byteLength ((done ++ [c]) ++ front) + byteLength form.opener + byteLength written⟩, form⟩ ∈
            pattern.searchFrom quotes (byteLength done + c.utf8Size) resume' (front ++ behind) := by
      rw [hsize]
      refine ih hbounded hresume' fun before between form' written' hfront hne hm hb => ?_
      have := hpass (c :: before) between form' written' (by rw [hfront, List.cons_append]) hne hm
      rw [List.append_cons] at this
      exact this hb
    rw [List.cons_append, searchFrom]
    split
    · exact behind' hresume
    · split
      · next form' written' hm =>
        split
        · next hb =>
          have hstop := hpass [] (c :: front) form' written' rfl (List.cons_ne_nil _ _) hm (by rwa [List.append_nil])
          rw [List.append_nil] at hstop
          exact List.mem_cons_of_mem _ (behind' hstop)
        · exact behind' hresume
      · exact behind' hresume

theorem le_start_of_mem_searchFrom {pattern : NamePattern} {quotes : QuoteMap} {text : List Char}
    {pos resume : Nat}
    {r : Reference} (h : r ∈ pattern.searchFrom quotes pos resume text) :
    pos < r.span.start ∧ resume < r.span.start := by
  induction text generalizing pos resume with
  | nil => cases h
  | cons c text ih =>
    have hpos := c.utf8Size_pos
    have behind {resume' : Nat} (h : r ∈ pattern.searchFrom quotes (pos + c.utf8Size) resume' text) :
        pos < r.span.start ∧ resume' < r.span.start := by
      have := ih h
      omega
    unfold searchFrom at h
    split at h
    · exact behind h
    · next hge =>
      split at h
      · next form written _ =>
        split at h
        · have hopen := byteLength_pos form.opener_ne_nil
          rcases List.mem_cons.mp h with rfl | h
          · simp only
            omega
          · have := behind h
            omega
        · exact behind h
      · exact behind h

theorem pairwise_searchFrom (pattern : NamePattern) (quotes : QuoteMap) (text : List Char) (pos resume : Nat) :
    (pattern.searchFrom quotes pos resume text).Pairwise (fun a b => a.span.stop < b.span.start) := by
  induction text generalizing pos resume with
  | nil => exact .nil
  | cons c text ih =>
    unfold searchFrom
    split
    · exact ih _ _
    · split
      · split
        · exact List.pairwise_cons.mpr ⟨fun r hr => (le_start_of_mem_searchFrom hr).2, ih _ _⟩
        · exact ih _ _
      · exact ih _ _

end NamePattern

theorem mem_findReferences {name text : List Char} (hn : Context.outside.nests text = true) {r : Reference} :
    r ∈ findReferences name (QuoteMap.lex text) text ↔
      ∃ m : Mention .outside text, m.name = name ∧ m.reference = r := by
  unfold findReferences
  cases name with
  | nil => simp [Mention.name_ne]
  | cons c name =>
    have h := @NamePattern.mem_searchFrom (c :: name) (List.cons_ne_nil c name) [] text 0 hn r
    simpa [NamePattern.search, Reported] using h

/-- In any text a mention is found if all fits that may open before it and whose name is written over its opener. -/
theorem Mention.reference_mem {text : List Char} (m : Mention .outside text)
    (hpass : ∀ (before between z : List Char) (form : Form), m.before = before ++ between → between ≠ [] → z ≠ [] →
      m.before ++ z <+: text → form.opener ++ form.write m.name = between ++ z → form.admits m.name = true →
      form.MayOpen (Context.outside.read before) → form.fits (Context.outside.read before) = true) :
    m.reference ∈ findReferences m.name (QuoteMap.lex text) text := by
  obtain ⟨before, form, name, rest, rfl, fits, admits, ends, name_ne⟩ := m
  let text := before ++ (form.wrap name ++ rest)
  have hmatch : (NamePattern.literal name).matchAt? (form.wrap name ++ rest) = some (form, form.write name) :=
    NamePattern.matchAt?_literal.mpr ⟨admits, rfl, rest, rfl, ends⟩
  have hbounded : form.isBounded (QuoteMap.lex text) (byteLength before) = true := isBounded_wrap_iff.mpr (.inl fits)
  have hmem := @NamePattern.mem_searchFrom_of_match form (.literal name) (QuoteMap.lex text) [] before _ _ 0 hmatch
    hbounded (Nat.zero_le _) fun front between form' written' hbefore hbetween hm hb => by
      obtain ⟨hadmits, rfl, rest', hrest, hends⟩ := NamePattern.matchAt?_literal.mp hm
      have hplace : text = front ++ (form'.wrap name ++ rest') := by rw [← hrest, ← List.append_assoc, ← hbefore]
      rw [hplace] at hb
      by_contra hlt
      obtain ⟨z, hz⟩ : between <+: form'.opener ++ form'.write name := by
        refine prefix_of_byteLength_le ⟨_, hrest⟩ ⟨form'.closer ++ rest', by simp [Form.wrap]⟩ ?_
        simp only [List.nil_append, hbefore, byteLength_append] at hlt ⊢
        omega
      have hznil : z ≠ [] := by
        rintro rfl
        have hlen := congrArg byteLength hz
        simp only [List.nil_append, hbefore, List.append_nil, byteLength_append] at hlt hlen
        omega
      have hover : before ++ z <+: text := by
        refine ⟨form'.closer ++ rest', ?_⟩
        rw [hplace, hbefore, List.append_assoc front, hz]
        simp [Form.wrap]
      have hfits := hpass front between z form' hbefore hbetween hznil hover hz.symm hadmits (isBounded_wrap_iff.mp hb)
      -- what fits is a mention of the same name, and ends before the other one
      let k : Mention .outside text := ⟨front, form', name, rest', hplace, hfits, hadmits, hends, name_ne⟩
      let m : Mention .outside text := ⟨before, form, name, rest, rfl, fits, admits, ends, name_ne⟩
      have hfirst : k.first < m.first := by
        have := byteLength_pos hbetween
        simp only [first, k, m, hbefore, byteLength_append]
        omega
      exact hlt (stop_le_first (show k.name = m.name from rfl) hfirst)
  rw [findReferences, if_neg (by simpa using name_ne)]
  exact hmem

theorem pairwise_findReferences (name : List Char) (quotes : QuoteMap) (text : List Char) :
    (findReferences name quotes text).Pairwise (fun a b => a.span.stop < b.span.start) := by
  unfold findReferences
  split
  · exact .nil
  · exact NamePattern.pairwise_searchFrom ..

end FieldRemap
