/-
  FieldRemap.Proofs.Parts — references in a part of a text.

  A part of a text is closed when it is read from outside every string to outside every string,
  and none of its single quotes stands outside (`Closed`). Where such a part starts outside every
  string, its mentions are those of the text that open in it (`Mention.exists_part`,
  `Mention.exists_whole`): a reference that opens in the part ends in it (`Mention.exists_extend`).
-/

import FieldRemap.Proofs.Weave
import FieldRemap.Proofs.Whole

namespace FieldRemap

/-- Inside a reference a text is inside a string. -/
theorem Form.inString_of_isPrefix {form : Form} {context : Context} {name front : List Char}
    (hf : form.fits context = true) (ha : form.admits name = true) (hp : front <+: form.wrap name)
    (hnil : front ≠ []) (hne : front ≠ form.wrap name) : (context.read front).inString = true := by
  by_cases hs : form = .string
  · subst hs
    obtain ⟨c, front, rfl⟩ := List.exists_cons_of_ne_nil hnil
    obtain ⟨rfl, hbody⟩ := List.cons_prefix_cons.mp hp
    rw [Context.read_cons, show context.next '"' = _ from read_opener hf]
    exact holds_of_isPrefix hf ha hbody fun he => hne (congrArg ('"' :: ·) he)
  · exact through_wrap hs hf ha front hp

/-- A text that ends outside every string goes on behind an accessor, and its end does not depend on what follows. -/
theorem Form.endsAccessor_append {context : Context} {name rest : List Char} (hf : fits .accessor context = true)
    (ha : admits .accessor name = true) (hback : context.read (wrap .accessor name ++ rest) = .outside)
    (behind : List Char) : endsAccessor (rest ++ behind) = endsAccessor rest := by
  cases rest with
  | nil =>
    rw [List.append_nil, read_wrap hf ha] at hback
    cases hback
  | cons => rfl

namespace Mention

variable {a b : List Char}

def extend (m : Mention .outside a) (h : Closed a) (b : List Char) : Mention .outside (a ++ b) where
  before := m.before
  form := m.form
  name := m.name
  rest := m.rest ++ b
  text_eq := (congrArg (· ++ b) m.text_eq).trans (by simp)
  fits := m.fits
  admits := m.admits
  ends := by
    intro hacc
    have hback := h.back
    rw [m.text_eq, Context.read_append, hacc] at hback
    rw [Form.endsAccessor_append (hacc ▸ m.fits) (hacc ▸ m.admits) hback, m.ends hacc]
  name_ne := m.name_ne

/-- A mention that opens in a closed text ends in it. -/
theorem exists_extend (h : Closed a) (m : Mention .outside (a ++ b)) (hlt : m.first < byteLength a) :
    ∃ m' : Mention .outside a, m'.extend h b = m := by
  obtain ⟨before, form, name, rest, text_eq, fits, admits, ends, name_ne⟩ := m
  obtain ⟨d, rfl⟩ := prefix_of_byteLength_le ⟨_, text_eq.symm⟩ (List.prefix_append a b) (Nat.le_of_lt hlt)
  have hd : d ≠ [] := by
    rintro rfl
    simp [first] at hlt
  have he : d ++ b = form.wrap name ++ rest := List.append_cancel_left (List.append_assoc .. ▸ text_eq)
  have hback := h.back
  rw [Context.read_append] at hback
  have hp : form.wrap name <+: d := by
    rcases List.prefix_or_prefix_of_prefix (List.prefix_append _ rest) (he ▸ List.prefix_append d b) with hp | hp
    · exact hp
    · by_cases heq : d = form.wrap name
      · exact heq ▸ List.prefix_rfl
      · have hin := Form.inString_of_isPrefix fits admits hp hd heq
        rw [hback] at hin
        cases hin
  obtain ⟨r, rfl⟩ := hp
  have hrest : rest = r ++ b := (List.append_cancel_left (List.append_assoc .. ▸ he)).symm
  subst hrest
  have hends : form = .accessor → Form.endsAccessor r = true := by
    rintro rfl
    rw [← Form.endsAccessor_append fits admits hback b, ends rfl]
  exact ⟨⟨before, form, name, r, rfl, fits, admits, hends, name_ne⟩, rfl⟩

end Mention

def Reference.shift (offset : Nat) (reference : Reference) : Reference :=
  { reference with span := ⟨offset + reference.span.start, offset + reference.span.stop⟩ }

theorem Mention.reference_prepend {context : Context} {front text : List Char}
    (m : Mention (context.read front) text) : (m.prepend front).reference = m.reference.shift (byteLength front) := by
  simp only [reference, Reference.shift, stop, start, first, prepend, byteLength_append, Nat.add_assoc]


namespace Mention

variable {front part back : List Char}

/-- A mention that opens in a closed part of a text is one of the part. -/
theorem exists_part (hfront : Context.outside.read front = .outside) (hpart : Closed part)
    (m : Mention .outside (front ++ (part ++ back))) (hge : byteLength front ≤ m.first)
    (hlt : m.first < byteLength front + byteLength part) :
    ∃ n : Mention .outside part, n.name = m.name ∧ m.reference = n.reference.shift (byteLength front) := by
  have part_of : ∀ context : Context, context = .outside → ∀ n : Mention context (part ++ back),
      n.first < byteLength part → ∃ n' : Mention .outside part, n'.name = n.name ∧ n'.reference = n.reference := by
    rintro _ rfl n hn
    obtain ⟨n', rfl⟩ := exists_extend hpart n hn
    exact ⟨n', rfl, rfl⟩
  obtain ⟨n, rfl⟩ := m.exists_prepend hge
  rw [first_prepend] at hlt
  obtain ⟨n', hname, href⟩ := part_of _ hfront n (by omega)
  exact ⟨n', hname, by rw [href, reference_prepend]⟩

/-- A mention of a closed part of a text is one of the text. -/
theorem exists_whole (hfront : Context.outside.read front = .outside) (hpart : Closed part)
    (n : Mention .outside part) (back : List Char) : ∃ m : Mention .outside (front ++ (part ++ back)),
      m.before = front ++ n.before ∧ m.name = n.name ∧ m.reference = n.reference.shift (byteLength front) := by
  have of_part : ∀ context : Context, context = .outside → ∃ m : Mention context (part ++ back),
      m.before = n.before ∧ m.name = n.name ∧ m.reference = n.reference := by
    rintro _ rfl
    exact ⟨n.extend hpart back, rfl, rfl, rfl⟩
  obtain ⟨m, hbefore, hname, href⟩ := of_part _ hfront
  exact ⟨m.prepend front, congrArg (front ++ ·) hbefore, hname, by rw [reference_prepend, href]⟩

end Mention

namespace Form

variable {form : Form} {context : Context} {a b part opener : List Char} {c : Char}

/-- In a closed part of a text every form fits that may open. -/
theorem MayOpen.fits_of_nests (h : form.MayOpen (Context.outside.read a))
    (hn : Context.outside.nests (a ++ c :: b) = true) (hopener : form.opener = c :: opener) :
    form.fits (Context.outside.read a) = true := by
  obtain ⟨ha, hc⟩ := Context.nests_append.mp hn
  refine h.fits (Context.inString_of_nests (.inl rfl) ha) ?_
  rintro rfl ho
  obtain ⟨rfl, -⟩ := List.cons.inj hopener
  exact (Context.nests_cons.mp hc).1 ho rfl

/-- No part of an opener is read from where the form may open to outside every string. -/
theorem MayOpen.read_ne_outside (h : form.MayOpen context) (hp : c :: part <+: form.opener) :
    context.read (c :: part) ≠ .outside := by
  cases form with
  | string =>
    obtain rfl : context = .outside := by simpa [MayOpen, Form.fits] using h
    obtain ⟨rfl, hpart⟩ := List.cons_prefix_cons.mp hp
    obtain rfl := List.prefix_nil.mp hpart
    exact Context.noConfusion
  | escaped =>
    obtain rfl : context = .literal .code false := by simpa [MayOpen, Form.fits] using h
    obtain ⟨rfl, hpart⟩ := List.cons_prefix_cons.mp hp
    cases part with
    | nil => exact Context.noConfusion
    | cons d part =>
      obtain ⟨rfl, hrest⟩ := List.cons_prefix_cons.mp hpart
      obtain rfl := List.prefix_nil.mp hrest
      exact Context.noConfusion
  | single =>
    obtain ⟨rfl, hpart⟩ := List.cons_prefix_cons.mp hp
    obtain rfl := List.prefix_nil.mp hpart
    have h : context = .literal .code false ∨ context = .outside := by simpa [MayOpen, Form.fits] using h
    rcases h with rfl | rfl <;> exact Context.noConfusion
  | bracket | accessor =>
    obtain ⟨rfl, hpart⟩ := List.cons_prefix_cons.mp hp
    obtain rfl := List.prefix_nil.mp hpart
    have h : context.inString = true ∨ context = .single ∨ context = .singleBackslash := by
      simpa [MayOpen, Form.fits] using h
    rcases h with h | rfl | rfl
    · rw [Context.read_cons, next_delimiter h (by decide) (by decide) (by decide)]
      exact Context.noConfusion
    · exact Context.noConfusion
    · exact Context.noConfusion

end Form

theorem ascending_findReferences (name text : List Char) :
    (findReferences name (QuoteMap.lex text) text).Pairwise (fun r s => r.span.start < s.span.start) := by
  refine (pairwise_findReferences _ _ _).imp_of_mem fun hr _ hlt => ?_
  have := bounds_of_mem_findReferences hr
  omega

/-- What is found where its form fits is a mention. -/
theorem IsFound.exists_mention {name text before rest : List Char} {r : Reference}
    (h : IsFound text r before (r.form.write name) rest) (hadmits : r.form.admits name = true)
    (hends : r.form = .accessor → Form.endsAccessor rest = true) (hne : name ≠ [])
    (hfits : r.form.fits (Context.outside.read before) = true) :
    ∃ m : Mention .outside text, m.before = before ∧ m.name = name ∧ m.reference = r := by
  refine ⟨⟨before, r.form, name, rest, ?_, hfits, hadmits, hends, hne⟩, rfl, rfl, ?_⟩
  · rw [h.text_eq]
    simp [Form.wrap]
  · exact congrArg (Reference.mk · r.form) h.span_eq.symm

end FieldRemap
