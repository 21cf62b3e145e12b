/-
  FieldRemap.Proofs.Mention — the places where a text refers to a name.

  A mention is an opener in a context its form fits, a name the form admits, as the form writes
  it, and what closes the form. Two mentions of one text stand apart, or one is written inside
  the name of the other, or they open at one place (`Mention.compare`); so their spans never
  cross (`Mention.nested`), and no mention of a name lies inside another one of that name
  (`Mention.ne_of_inside`).
-/

import FieldRemap.Proofs.Reading
import FieldRemap.Reference.Search

namespace FieldRemap

/-- A place where a name is referred to in a text that starts in a context. -/
structure Mention (context : Context) (text : List Char) where
  before : List Char
  form : Form
  name : List Char
  rest : List Char
  text_eq : text = before ++ (form.wrap name ++ rest)
  fits : form.fits (context.read before) = true
  admits : form.admits name = true
  ends : form = .accessor → Form.endsAccessor rest = true
  name_ne : name ≠ []

namespace Mention

variable {context : Context} {text : List Char}

def first (m : Mention context text) : Nat := byteLength m.before

def start (m : Mention context text) : Nat := m.first + byteLength m.form.opener

def stop (m : Mention context text) : Nat := m.start + byteLength (m.form.write m.name)

def last (m : Mention context text) : Nat := m.first + byteLength (m.form.wrap m.name)

def reference (m : Mention context text) : Reference := ⟨⟨m.start, m.stop⟩, m.form⟩

theorem first_lt_start (m : Mention context text) : m.first < m.start := by
  have := byteLength_pos m.form.opener_ne_nil
  unfold start; omega

theorem start_lt_stop (m : Mention context text) : m.start < m.stop := by
  have := byteLength_pos (@Form.write_ne_nil m.form _ m.name_ne)
  unfold stop; omega

theorem stop_le_last (m : Mention context text) : m.stop ≤ m.last := by
  simp only [stop, start, last, Form.wrap, byteLength_append]; omega

theorem last_le (m : Mention context text) : m.last ≤ byteLength text := by
  have hlen := congrArg byteLength m.text_eq
  simp only [byteLength_append] at hlen
  unfold last first
  omega

theorem before_isPrefix (m : Mention context text) : m.before <+: text :=
  ⟨_, m.text_eq.symm⟩

/-! ## Two mentions -/

def Precedes (m n : Mention context text) : Prop := m.last ≤ n.first

structure Inside (m n : Mention context text) : Prop where
  forms : m.form = .bracket ∨ m.form = .accessor ∨ (n.form = .string ∧ m.form ≠ .string)
  place : ∃ a b, m.before = n.before ++ (n.form.opener ++ a) ∧
    n.form.write n.name = a ++ (m.form.wrap m.name ++ b)

/-- Both mentions open at one place: they are of one name, unless they are accessors. -/
structure Meets (m n : Mention context text) : Prop where
  before : m.before = n.before
  form : m.form = n.form
  name : m.form ≠ .accessor → m.name = n.name

theorem Meets.symm {m n : Mention context text} (h : m.Meets n) : n.Meets m :=
  ⟨h.before.symm, h.form.symm, fun hacc => (h.name (h.form ▸ hacc)).symm⟩

/-- Mentions that open at one place meet. -/
theorem meets_of_before {m n : Mention context text} (h : m.before = n.before) : m.Meets n := by
  have he : m.form.wrap m.name ++ m.rest = n.form.wrap n.name ++ n.rest := by
    have := m.text_eq.symm.trans n.text_eq
    rw [h] at this
    exact List.append_cancel_left this
  obtain ⟨hform, hname⟩ := Form.wrap_inj m.fits m.admits n.admits he
  exact ⟨h, hform, hname⟩

theorem compare_of_isPrefix {m n : Mention context text} (h : m.before <+: n.before) :
    m.Precedes n ∨ n.Inside m ∨ m.Meets n := by
  obtain ⟨d, hd⟩ := h
  by_cases hnil : d = []
  · exact .inr (.inr (meets_of_before (by rw [← hd, hnil, List.append_nil])))
  · have he : m.form.wrap m.name ++ m.rest = d ++ (n.form.wrap n.name ++ n.rest) := by
      have := m.text_eq.symm.trans n.text_eq
      rw [← hd, List.append_assoc] at this
      exact List.append_cancel_left this
    have hfits : n.form.fits ((context.read m.before).read d) = true := by
      rw [← Context.read_append, hd]
      exact n.fits
    rcases Form.wrap_nested m.fits m.admits hfits n.admits he hnil with hp | ⟨hforms, a, b, rfl, hw⟩
    · left
      have := byteLength_le_of_isPrefix hp
      simp only [Precedes, last, first, ← hd, byteLength_append]; omega
    · exact .inr (.inl ⟨hforms, a, b, hd.symm, hw⟩)

theorem compare (m n : Mention context text) :
    m.Precedes n ∨ n.Precedes m ∨ m.Inside n ∨ n.Inside m ∨ m.Meets n := by
  rcases List.prefix_or_prefix_of_prefix m.before_isPrefix n.before_isPrefix with h | h
  · rcases compare_of_isPrefix h with h | h | h
    · exact .inl h
    · exact .inr (.inr (.inr (.inl h)))
    · exact .inr (.inr (.inr (.inr h)))
  · rcases compare_of_isPrefix h with h | h | h
    · exact .inr (.inl h)
    · exact .inr (.inr (.inl h))
    · exact .inr (.inr (.inr (.inr h.symm)))

/-- A name is not written inside its own writing in another form. -/
theorem ne_of_inside {m n : Mention context text} (h : m.Inside n) : m.name ≠ n.name := by
  intro hname
  obtain ⟨hforms, a, b, _, hw⟩ := h
  have hsub : m.form.wrap m.name <:+: n.form.write n.name := ⟨a, b, by rw [hw]; simp⟩
  have hopener {c : Char} (hc : c ∈ m.form.opener) (he : isEscapeChar c = false) : c ∈ m.name := by
    rw [hname]
    refine Form.mem_of_mem_write he (hsub.mem ?_)
    exact List.mem_append_left _ hc
  have hadmits := m.admits
  rcases hforms with hf | hf | ⟨hf, hne⟩
  · rw [hf] at hadmits hopener
    have hmem : '[' ∈ m.name := hopener (by decide) (by decide)
    have := List.all_eq_true.mp hadmits _ hmem
    simp at this
  · rw [hf] at hadmits hopener
    have hmem : '.' ∈ m.name := hopener (by decide) (by decide)
    exact absurd rfl (Form.ne_of_isIdentifierPart (Form.isIdentifierPart_of_mem hadmits hmem)
      (by decide : isIdentifierPart '.' = false))
  · -- in a JSON string the inner name would take as many bytes as the outer one, and its delimiters
    have hlen : byteLength (m.form.wrap m.name) ≤ byteLength (encodeName m.name) := by
      have := congrArg byteLength hw
      rw [hf, ← hname] at this
      simp only [Form.write, byteLength_append] at this
      omega
    have hopen := byteLength_pos m.form.opener_ne_nil
    rw [Form.wrap, byteLength_append, byteLength_append] at hlen
    cases hform : m.form with
    | string => exact hne hform
    | escaped =>
      have := byteLength_le_encodeName (encodeName m.name)
      simp only [hform, Form.write] at hlen hopen
      omega
    | single =>
      have := byteLength_encodeName_le m.name
      simp only [hform, Form.write] at hlen hopen
      omega
    | bracket =>
      simp only [hform, Form.write] at hlen hopen
      omega
    | accessor =>
      rw [hform] at hadmits hopener
      have hmem : '.' ∈ m.name := hopener (by decide) (by decide)
      exact absurd rfl (Form.ne_of_isIdentifierPart (Form.isIdentifierPart_of_mem hadmits hmem)
        (by decide : isIdentifierPart '.' = false))

/-! ## Spans -/

theorem Precedes.stop_lt {m n : Mention context text} (h : m.Precedes n) : m.stop < n.start := by
  have := m.stop_le_last
  have := n.first_lt_start
  unfold Precedes at h; omega

theorem Inside.bounds {m n : Mention context text} (h : m.Inside n) : n.start ≤ m.first ∧ m.last ≤ n.stop := by
  obtain ⟨_, a, b, hbefore, hw⟩ := h
  simp only [start, stop, last, first, hbefore, hw, byteLength_append]
  omega

theorem Meets.start_eq {m n : Mention context text} (h : m.Meets n) : m.start = n.start := by
  simp only [start, first, h.before, h.form]

theorem precedes_of_stop_le {m n : Mention context text} (h : m.stop ≤ n.start) : m.Precedes n := by
  have hm := m.start_lt_stop
  have hn := n.start_lt_stop
  have hmf := m.first_lt_start
  have hnf := n.first_lt_start
  have hml := m.stop_le_last
  have hnl := n.stop_le_last
  rcases m.compare n with h' | h' | h' | h' | h'
  · exact h'
  · have := h'.stop_lt; omega
  · have := h'.bounds; omega
  · have := h'.bounds; omega
  · have := h'.start_eq; omega

/-- The spans of two mentions are apart, or one holds the other. -/
theorem nested (m n : Mention context text) :
    m.stop ≤ n.start ∨ n.stop ≤ m.start ∨ (n.start ≤ m.start ∧ m.stop ≤ n.stop) ∨
      (m.start ≤ n.start ∧ n.stop ≤ m.stop) := by
  have hm := m.first_lt_start
  have hn := n.first_lt_start
  have hml := m.stop_le_last
  have hnl := n.stop_le_last
  rcases m.compare n with h | h | h | h | h
  · have := h.stop_lt; omega
  · have := h.stop_lt; omega
  · have := h.bounds; omega
  · have := h.bounds; omega
  · have := h.start_eq; omega

theorem eq_of_span_eq {m n : Mention context text} (hstart : m.start = n.start) (hstop : m.stop = n.stop) :
    m.before = n.before ∧ m.form = n.form ∧ m.name = n.name := by
  have hm := m.first_lt_start
  have hn := n.first_lt_start
  have hmn := m.start_lt_stop
  have hnn := n.start_lt_stop
  have hmeets : m.Meets n := by
    rcases m.compare n with h | h | h | h | h
    · have := h.stop_lt; omega
    · have := h.stop_lt; omega
    · have := h.bounds; omega
    · have := h.bounds; omega
    · exact h
  refine ⟨hmeets.before, hmeets.form, ?_⟩
  by_cases hacc : m.form = .accessor
  · -- accessors are written as they are, so the ends of the names tell
    have he := m.text_eq.symm.trans n.text_eq
    have hlen : byteLength (m.form.write m.name) = byteLength (m.form.write n.name) := by
      simp only [stop, hstart, ← hmeets.form] at hstop
      omega
    rw [hmeets.before, ← hmeets.form, Form.wrap, Form.wrap] at he
    simp only [List.append_assoc] at he
    have he := List.append_cancel_left (List.append_cancel_left he)
    exact Form.write_inj (eq_of_byteLength_eq (List.prefix_append _ _) ⟨_, he.symm⟩ hlen)
  · exact hmeets.name hacc

theorem name_eq_of_span {m n : Mention context text}
    (h : m.reference.span = n.reference.span) : m.name = n.name :=
  (eq_of_span_eq (congrArg Span.start h) (congrArg Span.stop h)).2.2

end Mention

end FieldRemap
