/-
  FieldRemap.Proofs.Weave — passages whose references are mentions of their text.

  `Woven` says that the reference of each passage fits where it stands. Every mention of a woven
  text meets the reference of a passage, holds one, lies inside one, or stands in the text
  between them (`Woven.standing`). Giving the references other names that their forms admit
  keeps the passages woven (`Woven.refill`), and what stood between them stays a mention
  (`Woven.mention_of_gap`).
-/

import FieldRemap.Proofs.Layout

namespace FieldRemap

open Passage

/-- The references of the passages are mentions of their text, from a context on. -/
inductive Woven (tail : List Char) : Context → List Passage → Prop
  | nil {context : Context} : Woven tail context []
  | cons {context : Context} {p : Passage} {ps : List Passage} :
      p.form.fits (context.read p.lead) = true → p.form.admits p.old = true → p.old ≠ [] →
      (p.form = .accessor → Form.endsAccessor (source tail ps) = true) →
      Woven tail (p.form.leave (context.read p.lead)) ps → Woven tail context (p :: ps)

namespace Mention

variable {context : Context} {text front : List Char}

def prepend (front : List Char) (m : Mention (context.read front) text) : Mention context (front ++ text) where
  before := front ++ m.before
  form := m.form
  name := m.name
  rest := m.rest
  text_eq := by rw [List.append_assoc, ← m.text_eq]
  fits := by rw [Context.read_append]; exact m.fits
  admits := m.admits
  ends := m.ends
  name_ne := m.name_ne

theorem first_prepend (front : List Char) (m : Mention (context.read front) text) :
    (m.prepend front).first = byteLength front + m.first :=
  byteLength_append _ _

theorem exists_prepend (m : Mention context (front ++ text)) (h : byteLength front ≤ m.first) :
    ∃ m' : Mention (context.read front) text, m'.prepend front = m := by
  obtain ⟨d, hd⟩ := prefix_of_byteLength_le (List.prefix_append front text) m.before_isPrefix h
  obtain ⟨before, form, name, rest, text_eq, fits, admits, ends, name_ne⟩ := m
  obtain rfl : front ++ d = before := hd
  refine ⟨⟨d, form, name, rest, ?_, ?_, admits, ends, name_ne⟩, rfl⟩
  · rw [List.append_assoc] at text_eq
    exact List.append_cancel_left text_eq
  · rw [← Context.read_append]
    exact fits

theorem Inside.prepend {m n : Mention (context.read front) text} (h : m.Inside n) :
    (m.prepend front).Inside (n.prepend front) := by
  obtain ⟨hforms, a, b, hbefore, hw⟩ := h
  exact ⟨hforms, a, b, by simp [Mention.prepend, hbefore], hw⟩

theorem Meets.prepend {m n : Mention (context.read front) text} (h : m.Meets n) :
    (m.prepend front).Meets (n.prepend front) :=
  ⟨by simp [Mention.prepend, h.before], h.form, h.name⟩

/-- The mention is the reference of a passage that stands behind others. -/
structure Of (m : Mention context text) (front : List Passage) (p : Passage) : Prop where
  before : m.before = source [] front ++ p.lead
  form : m.form = p.form
  name : m.name = p.old

theorem Of.reference_eq {m : Mention context text} {front : List Passage} {p : Passage} (h : m.Of front p) :
    m.reference = p.reference (byteLength (source [] front)) := by
  simp only [Mention.reference, stop, start, first, Passage.reference, h.before, h.form, h.name, byteLength_append]

end Mention

namespace Passage

def gap (tail : List Char) : List Passage → List Char
  | [] => tail
  | p :: _ => p.lead

/-- What stands behind it: the first reference and all that follows. -/
def beyond (tail : List Char) : List Passage → List Char
  | [] => []
  | p :: ps => p.form.wrap p.old ++ source tail ps

theorem gap_append_beyond (tail : List Char)
    (ps : List Passage) : gap tail ps ++ beyond tail ps = source tail ps := by
  cases ps <;> simp [gap, beyond]

theorem gap_isInfix (tail : List Char) (front back : List Passage) : gap tail back <:+: source tail
    (front ++ back) := by
  rw [source_append, ← gap_append_beyond tail back]
  exact ⟨source [] front, beyond tail back, by simp⟩

theorem source_cons_eq (tail : List Char) (p : Passage) (ps : List Passage) :
    source tail (p :: ps) = (p.lead ++ p.form.wrap p.old) ++ source tail ps := by
  simp

end Passage

namespace Woven

variable {tail : List Char} {context : Context} {ps : List Passage} {p : Passage}

theorem read_passage (hfits : p.form.fits (context.read p.lead) = true) (hadmits : p.form.admits p.old = true) :
    context.read (p.lead ++ p.form.wrap p.old) = p.form.leave (context.read p.lead) := by
  rw [Context.read_append, Form.read_wrap hfits hadmits]

/-- The reference of each passage is a mention. -/
theorem exists_mention {front back : List Passage} (h : Woven tail context (front ++ p :: back)) :
    ∃ m : Mention context (source tail (front ++ p :: back)), m.Of front p := by
  induction front generalizing context with
  | nil =>
    cases h with
    | cons hfits hadmits hne hends _ =>
      exact ⟨⟨p.lead, p.form, p.old, _, rfl, hfits, hadmits, hends, hne⟩, rfl, rfl, rfl⟩
  | cons q front ih =>
    cases h with
    | cons hfits hadmits _ _ hrest =>
      rw [← read_passage hfits hadmits] at hrest
      obtain ⟨m, hm⟩ := ih hrest
      rw [List.cons_append, source_cons_eq]
      exact ⟨m.prepend _, by simp [Mention.prepend, hm.before], hm.form, hm.name⟩

/-- A mention of a woven text meets the reference of a passage, or one lies inside the other, or
    it stands in the text between the references. -/
theorem standing (h : Woven tail context ps) (m : Mention context (source tail ps)) :
    (∃ front p back, ps = front ++ p :: back ∧
      ∃ n : Mention context (source tail ps), n.Of front p ∧ (m.Meets n ∨ m.Inside n ∨ n.Inside m)) ∨
    ∃ front back a b, ps = front ++ back ∧ m.before = source [] front ++ a ∧
      gap tail back = a ++ (m.form.wrap m.name ++ b) := by
  induction h with
  | nil => exact .inr ⟨[], [], m.before, m.rest, rfl, rfl, m.text_eq⟩
  | @cons context p ps hfits hadmits hne hends _ ih =>
    rw [← read_passage hfits hadmits] at ih
    let n : Mention context (source tail (p :: ps)) :=
      ⟨p.lead, p.form, p.old, _, rfl, hfits, hadmits, hends, hne⟩
    have here (hmn : m.Meets n ∨ m.Inside n ∨ n.Inside m) :
        ∃ front q back, p :: ps = front ++ q :: back ∧
          ∃ n : Mention context (source tail (p :: ps)), n.Of front q ∧ (m.Meets n ∨ m.Inside n ∨ n.Inside m) :=
      ⟨[], p, ps, rfl, n, ⟨rfl, rfl, rfl⟩, hmn⟩
    rcases m.compare n with hmn | hnm | hmn | hnm | hmn
    · -- before the first reference
      have hm : m.before ++ m.form.wrap m.name <+: source tail (p :: ps) :=
        ⟨m.rest, by rw [List.append_assoc, ← m.text_eq]⟩
      have hlen : byteLength (m.before ++ m.form.wrap m.name) ≤ byteLength p.lead := by
        rw [byteLength_append]
        exact hmn
      obtain ⟨b, hb⟩ := prefix_of_byteLength_le hm (List.prefix_append _ _) hlen
      exact .inr ⟨[], p :: ps, m.before, b, rfl, rfl, by simp [gap, ← hb]⟩
    · -- behind it, the mention is one of the passages that follow
      have hfirst : byteLength (p.lead ++ p.form.wrap p.old) ≤ m.first := by
        rw [byteLength_append]
        exact hnm
      clear here hnm
      clear n
      revert m
      rw [source_cons_eq]
      intro m hfirst
      obtain ⟨m, rfl⟩ := m.exists_prepend hfirst
      rcases ih m with ⟨front, q, back, rfl, n, hn, hmn⟩ | ⟨front, back, a, b, rfl, hbefore, hgap⟩
      · refine .inl ⟨p :: front, q, back, rfl, n.prepend _, ⟨?_, hn.form, hn.name⟩, ?_⟩
        · simp [Mention.prepend, hn.before]
        · exact hmn.imp (·.prepend) (Or.imp (·.prepend) (·.prepend))
      · exact .inr ⟨p :: front, back, a, b, rfl, by simp [Mention.prepend, hbefore], hgap⟩
    · exact .inl (here (.inr (.inl hmn)))
    · exact .inl (here (.inr (.inr hnm)))
    · exact .inl (here (.inl hmn))

/-! ## Other names -/

end Woven

namespace Passage

def refill (next : Passage → List Char) (p : Passage) : Passage :=
  ⟨p.lead, p.form, p.new, next p⟩

variable {next : Passage → List Char} {tail : List Char}

theorem source_refill {ps : List Passage} (h : ∀ p ∈ ps, p.form.admits p.new = true) :
    source tail (ps.map (refill next)) = target tail ps := by
  induction ps with
  | nil => rfl
  | cons p ps ih =>
    have hp := h p List.mem_cons_self
    simp [refill, Form.rewrap, hp, ih fun q hq => h q (List.mem_cons_of_mem _ hq)]

theorem gap_refill (ps : List Passage) : gap tail (ps.map (refill next)) = gap tail ps := by
  cases ps <;> rfl

/-- What ends an accessor does not depend on the names that follow. -/
theorem endsAccessor_refill (front : List Char) (ps : List Passage) :
    Form.endsAccessor (front ++ beyond tail (ps.map (refill next))) = Form.endsAccessor (front ++ beyond tail ps) := by
  cases front with
  | cons c front => rfl
  | nil =>
    cases ps with
    | nil => rfl
    | cons p ps =>
      simp only [List.map_cons, beyond, refill, List.nil_append]
      cases p.form <;> rfl

end Passage

namespace Woven

variable {tail : List Char} {context : Context} {ps : List Passage} {next : Passage → List Char}

theorem refill (h : Woven tail context ps) (hnew : ∀ p ∈ ps, p.form.admits p.new = true ∧ p.new ≠ []) :
    Woven tail context (ps.map (refill next)) := by
  induction h with
  | nil => exact .nil
  | @cons context p ps hfits _ _ hends _ ih =>
    obtain ⟨hadmits, hne⟩ := hnew p List.mem_cons_self
    refine .cons hfits hadmits hne (fun hacc => ?_) (ih fun q hq => hnew q (List.mem_cons_of_mem _ hq))
    rw [← gap_append_beyond, gap_refill, endsAccessor_refill, gap_append_beyond]
    exact hends hacc

/-- What is read behind passages does not depend on their names. -/
theorem read_source_refill {back : List Passage} (h : Woven tail context (ps ++ back))
    (hnew : ∀ p ∈ ps, p.form.admits p.new = true) :
    context.read (source [] (ps.map (Passage.refill next))) = context.read (source [] ps) := by
  induction ps generalizing context with
  | nil => rfl
  | cons p ps ih =>
    cases h with
    | cons hfits hadmits _ _ hrest =>
      have hp := hnew p List.mem_cons_self
      have hread := read_passage hfits hadmits
      have hread' := @read_passage context (Passage.refill next p) hfits hp
      simp only [List.map_cons, source_cons_eq]
      have ih := ih hrest fun q hq => hnew q (List.mem_cons_of_mem _ hq)
      rw [Context.read_append, hread', Context.read_append, hread, ← ih]
      rfl

theorem nests_wrap {form : Form} {name : List Char} (hfits : form.fits context = true)
    (hadmits : form.admits name = true) :
    context.nests (form.wrap name) = true := by
  by_cases hs : form = .string
  · subst hs
    obtain rfl : context = .outside := beq_iff_eq.mp hfits
    obtain ⟨hthrough, inner, escaped, hread⟩ := through_encodeName .code false name
    have hquote : Context.outside.next '"' = .literal .code false := rfl
    show Context.outside.nests ('"' :: (encodeName name ++ ['"'])) = true
    refine Context.nests_cons.mpr ⟨fun _ => by decide, Context.nests_append.mpr ⟨Context.nests_of_through hthrough, ?_⟩⟩
    rw [hquote, hread]
    rfl
  · exact Context.nests_of_through (Form.through_wrap hs hfits hadmits)

theorem nests_refill (h : Woven tail context ps) (hnew : ∀ p ∈ ps, p.form.admits p.new = true) :
    context.nests (source tail (ps.map (Passage.refill next))) = context.nests (source tail ps) := by
  induction h with
  | nil => rfl
  | @cons context p ps hfits hadmits _ _ _ ih =>
    have hp := hnew p List.mem_cons_self
    have ih := ih fun q hq => hnew q (List.mem_cons_of_mem _ hq)
    have hwrap := nests_wrap hfits hadmits
    have hwrap' := nests_wrap hfits hp
    rw [Bool.eq_iff_iff]
    simp only [List.map_cons, source_cons, Context.nests_append, Passage.refill, Form.read_wrap hfits hadmits,
      Form.read_wrap hfits hp, hwrap, hwrap', ih]

/-- A mention between the references stands there whatever their names. -/
theorem mention_of_gap {front back : List Passage} {a b : List Char} (h : Woven tail context (front ++ back))
    (hnew : ∀ p ∈ front, p.form.admits p.new = true)
    (m : Mention context (source tail ((front ++ back).map (Passage.refill next))))
    (hbefore : m.before = source [] (front.map (Passage.refill next)) ++ a)
    (hgap : gap tail back = a ++ (m.form.wrap m.name ++ b)) :
    ∃ m' : Mention context (source tail (front ++ back)), m'.before = source [] front ++ a ∧ m'.form = m.form ∧
      m'.name = m.name := by
  have hsource (qs qs' : List Passage) :
      source tail (qs ++ qs') = source [] qs ++ (gap tail qs' ++ beyond tail qs') := by
    rw [source_append, gap_append_beyond]
  have hrest : m.rest = b ++ beyond tail (back.map (Passage.refill next)) := by
    have htext : source tail ((front ++ back).map (Passage.refill next)) =
        source [] (front.map (Passage.refill next)) ++
          (gap tail back ++ beyond tail (back.map (Passage.refill next))) := by
      rw [List.map_append, hsource, gap_refill]
    have hm := m.text_eq.symm.trans htext
    rw [hbefore, hgap] at hm
    simpa using hm
  refine ⟨⟨source [] front ++ a, m.form, m.name, b ++ beyond tail back, ?_, ?_, m.admits, fun hacc => ?_, m.name_ne⟩,
    rfl, rfl, rfl⟩
  · rw [hsource, hgap]
    simp
  · have := m.fits
    rw [hbefore, Context.read_append, read_source_refill h hnew] at this
    rw [Context.read_append]
    exact this
  · rw [← @endsAccessor_refill next tail b back, ← hrest]
    exact m.ends hacc

/-- A mention between the references is apart from them. -/
theorem apart_of_gap {front back : List Passage} {a b : List Char}
    (m : Mention context (source tail (front ++ back))) (hbefore : m.before = source [] front ++ a)
    (hgap : gap tail back = a ++ (m.form.wrap m.name ++ b)) :
    ∀ x ∈ located 0 (front ++ back), x.1.span.stop ≤ m.start ∨ m.stop ≤ x.1.span.start := by
  intro x hx
  have hfirst : m.first = byteLength (source [] front) + byteLength a := by
    rw [Mention.first, hbefore, byteLength_append]
  have hm := m.first_lt_start
  have hlast : m.last = m.first + byteLength (m.form.wrap m.name) := rfl
  have hml := m.stop_le_last
  rw [located_append, List.mem_append] at hx
  rcases hx with hx | hx
  · left
    obtain ⟨front, p, qs, rfl, rfl⟩ := mem_located.mp hx
    have := reference_bounds (0 + byteLength (source [] front)) p
    simp only [source_append, source_cons, byteLength_append] at hfirst
    simp only
    omega
  · right
    obtain ⟨qs, p, back, rfl, rfl⟩ := mem_located.mp hx
    have := reference_bounds (0 + byteLength (source [] front) + byteLength (source [] qs)) p
    cases qs with
    | nil =>
      have hgap := congrArg byteLength hgap
      simp only [List.nil_append, gap, byteLength_append] at hgap
      simp only [Passage.reference, source_nil, byteLength_nil]
      omega
    | cons q qs =>
      have hgap := congrArg byteLength hgap
      simp only [List.cons_append, gap, byteLength_append] at hgap
      simp only [source_cons, byteLength_append] at this ⊢
      omega

end Woven

/-! ## Laying out a text -/

/-- References of a text that ascend without overlap lay it out. -/
theorem exists_woven {Q : List Char → List Char → Prop} {context : Context} {front text : List Char}
    {marks : List (Reference × List Char)}
    (hmarks : ∀ x ∈ marks, ∃ m : Mention context (front ++ text), m.reference = x.1 ∧ byteLength front ≤ m.first ∧
      Q m.name x.2)
    (hpairwise : marks.Pairwise fun a b => a.1.span.stop ≤ b.1.span.start) :
    ∃ ps tail, source tail ps = text ∧ Woven tail (context.read front) ps ∧
      (located (byteLength front) ps).map (fun x => (x.1, x.2.new)) = marks ∧ ∀ p ∈ ps, Q p.old p.new := by
  induction marks generalizing front text with
  | nil => exact ⟨[], text, rfl, .nil, rfl, by simp⟩
  | cons x marks ih =>
    obtain ⟨hx, hpairwise⟩ := List.pairwise_cons.mp hpairwise
    obtain ⟨m, hreference, hfirst, hq⟩ := hmarks x List.mem_cons_self
    -- the others open behind the first one
    have hothers : ∀ y ∈ marks, ∃ n : Mention context (front ++ text),
        n.reference = y.1 ∧ m.last ≤ n.first ∧ Q n.name y.2 := by
      intro y hy
      obtain ⟨n, hn, _, hqn⟩ := hmarks y (List.mem_cons_of_mem _ hy)
      have hle := hx y hy
      rw [← hreference, ← hn] at hle
      exact ⟨n, hn, Mention.precedes_of_stop_le hle, hqn⟩
    obtain ⟨m, rfl⟩ := m.exists_prepend hfirst
    let p : Passage := ⟨m.before, m.form, m.name, x.2⟩
    have hlast : (m.prepend front).last = byteLength (front ++ (p.lead ++ p.form.wrap p.old)) := by
      simp only [Mention.last, Mention.first, Mention.prepend, byteLength_append, p]
      omega
    have htext : front ++ text = front ++ (p.lead ++ p.form.wrap p.old) ++ m.rest := by
      simpa [p] using m.text_eq
    rw [hlast, htext] at hothers
    obtain ⟨ps, tail, hsource, hwoven, hlocated, hnames⟩ := ih hothers hpairwise
    rw [Context.read_append, Woven.read_passage m.fits m.admits] at hwoven
    refine ⟨p :: ps, tail, ?_, .cons m.fits m.admits m.name_ne (fun hacc => ?_) hwoven, ?_, fun q hmem => ?_⟩
    · rw [source_cons, hsource]
      exact m.text_eq.symm
    · rw [hsource]
      exact m.ends hacc
    · have hmark : p.reference (byteLength front) = x.1 := by
        rw [← hreference]
        simp only [Passage.reference, Mention.reference, Mention.stop, Mention.start, Mention.first, Mention.prepend,
          byteLength_append, p]
      rw [located, List.map_cons, hmark, Nat.add_assoc, ← byteLength_append, ← byteLength_append, hlocated]
    · rcases List.mem_cons.mp hmem with rfl | hmem
      · exact hq
      · exact hnames q hmem

/-- Candidates that cover the references of a layout, and nothing else, all win. -/
theorem arbitrate_eq_located {α : Type} {candidates : List (Candidate α)} {ps : List Passage}
    {value : Reference × Passage → α} (hspans : ∀ x ∈ located 0 ps, x.1.span.start < x.1.span.stop)
    (hsound : ∀ c ∈ candidates, ∃ x ∈ located 0 ps, c.span = x.1.span ∧ c.value = value x)
    (hcomplete : ∀ x ∈ located 0 ps, ∃ c ∈ candidates, c.span = x.1.span) :
    (Candidate.arbitrate candidates).map (·.value) = (located 0 ps).map value := by
  have hnonempty : ∀ c ∈ candidates, c.span.start < c.span.stop := by
    intro c hc
    obtain ⟨x, hx, hspan, _⟩ := hsound c hc
    rw [hspan]
    exact hspans x hx
  suffices h : (Candidate.arbitrate candidates).map (fun c => (c.span, c.value)) =
      (located 0 ps).map fun x => (x.1.span, value x) by
    have := congrArg (List.map Prod.snd) h
    rw [List.map_map, List.map_map] at this
    exact this
  have hlocated : (located 0 ps).Pairwise (fun a b => a.1.span.start < b.1.span.start) :=
    (pairwise_located 0 ps).imp_of_mem fun {a b} ha _ hab => by have := hspans a ha; omega
  refine @eq_of_mem_iff _ (·.1.start) _ _ ?_ (List.pairwise_map.mpr hlocated) fun y => ?_
  · refine List.pairwise_map.mpr ((Candidate.pairwise_arbitrate hnonempty).imp_of_mem fun {a b} ha _ hab => ?_)
    have := hnonempty a (Candidate.mem_of_mem_arbitrate ha)
    simp only
    omega
  · simp only [List.mem_map]
    constructor
    · intro h'
      obtain ⟨c, hc, rfl⟩ := h'
      obtain ⟨x, hx, hspan, hvalue⟩ := hsound c (Candidate.mem_of_mem_arbitrate hc)
      exact ⟨x, hx, by rw [hspan, hvalue]⟩
    · intro h'
      obtain ⟨x, hx, rfl⟩ := h'
      obtain ⟨c, hc, hspan⟩ := hcomplete x hx
      obtain ⟨w, hw, -, hstart, hstop⟩ := Candidate.exists_mem_arbitrate hnonempty hc
      obtain ⟨y, hy, hwspan, hwvalue⟩ := hsound w (Candidate.mem_of_mem_arbitrate hw)
      refine ⟨w, hw, ?_⟩
      -- the winner's place holds the start of this one
      rw [hspan, hwspan] at hstart hstop
      obtain rfl : y = x := by
        have := hspans x hx
        exact eq_of_overlap hy hx (by omega) (by omega)
      rw [hwspan, hwvalue]

end FieldRemap
