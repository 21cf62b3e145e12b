/-
  FieldRemap.Proofs.Layout — a text laid out along the references that are redirected in it.

  A passage is a stretch of text that ends in a reference, with the name the reference is to
  be given. Redirecting the references of the passages replaces their names and keeps
  everything between them (`splice_located`).
-/

import FieldRemap.Edit
import FieldRemap.Proofs.Arbitration
import FieldRemap.Proofs.Mention

namespace FieldRemap

/-- A stretch of text that ends in a reference, and the name it is to be given. -/
structure Passage where
  lead : List Char
  form : Form
  old : List Char
  new : List Char

/-- A reference redirected to a name: a bracket between quotes where the form cannot hold it. -/
def Form.rewrap (form : Form) (name : List Char) : List Char :=
  if form.admits name then form.wrap name else '[' :: quotedKey name ++ [']']

namespace Passage

/-- The text of passages before their references are redirected, with what stands behind them. -/
def source (tail : List Char) : List Passage → List Char
  | [] => tail
  | p :: ps => p.lead ++ (p.form.wrap p.old ++ source tail ps)

def target (tail : List Char) : List Passage → List Char
  | [] => tail
  | p :: ps => p.lead ++ (p.form.rewrap p.new ++ target tail ps)

@[simp] theorem source_nil (tail : List Char) : source tail [] = tail := rfl

@[simp] theorem source_cons (tail : List Char) (p : Passage) (ps : List Passage) :
    source tail (p :: ps) = p.lead ++ (p.form.wrap p.old ++ source tail ps) := rfl

@[simp] theorem target_nil (tail : List Char) : target tail [] = tail := rfl

@[simp] theorem target_cons (tail : List Char) (p : Passage) (ps : List Passage) :
    target tail (p :: ps) = p.lead ++ (p.form.rewrap p.new ++ target tail ps) := rfl

theorem source_append (tail : List Char) (ps qs : List Passage) :
    source tail (ps ++ qs) = source [] ps ++ source tail qs := by
  induction ps with
  | nil => rfl
  | cons p ps ih => simp [ih]

def reference (pos : Nat) (p : Passage) : Reference :=
  let start := pos + byteLength p.lead + byteLength p.form.opener
  ⟨⟨start, start + byteLength (p.form.write p.old)⟩, p.form⟩

def located (pos : Nat) : List Passage → List (Reference × Passage)
  | [] => []
  | p :: ps => (p.reference pos, p) :: located (pos + byteLength p.lead + byteLength (p.form.wrap p.old)) ps

theorem located_append (pos : Nat) (ps qs : List Passage) :
    located pos (ps ++ qs) = located pos ps ++ located (pos + byteLength (source [] ps)) qs := by
  induction ps generalizing pos with
  | nil => rfl
  | cons p ps ih => simp [located, ih, Nat.add_assoc]

theorem map_snd_located (pos : Nat) (ps : List Passage) : (located pos ps).map (·.2) = ps := by
  induction ps generalizing pos with
  | nil => rfl
  | cons p ps ih => simp [located, ih]

theorem countP_located (pos : Nat) (ps : List Passage) (p : Passage → Bool) :
    (located pos ps).countP (fun x => p x.2) = ps.countP p := by
  have := @List.countP_map _ _ p (·.2) (located pos ps)
  rw [map_snd_located] at this
  exact this.symm

theorem mem_located {pos : Nat} {ps : List Passage} {x : Reference × Passage} :
    x ∈ located pos ps ↔ ∃ front p back, ps = front ++ p :: back ∧
      x = (p.reference (pos + byteLength (source [] front)), p) := by
  constructor
  · intro h
    induction ps generalizing pos with
    | nil => cases h
    | cons p ps ih =>
      rcases List.mem_cons.mp h with rfl | h
      · exact ⟨[], p, ps, rfl, rfl⟩
      · obtain ⟨front, q, back, rfl, rfl⟩ := ih h
        exact ⟨p :: front, q, back, rfl, by simp [Nat.add_assoc]⟩
  · intro h'
    obtain ⟨front, p, back, rfl, rfl⟩ := h'
    rw [located_append]
    exact List.mem_append_right _ List.mem_cons_self

/-- The passage of a located reference is one of the text's. -/
theorem mem_of_mem_located {pos : Nat} {ps : List Passage} {x : Reference × Passage} (h : x ∈ located pos ps) :
    x.2 ∈ ps := by
  obtain ⟨front, p, back, rfl, rfl⟩ := mem_located.mp h
  simp

theorem reference_bounds (pos : Nat) (p : Passage) :
    pos < (p.reference pos).span.start ∧ (p.reference pos).span.start ≤ (p.reference pos).span.stop ∧
      (p.reference pos).span.stop ≤ pos + byteLength p.lead + byteLength (p.form.wrap p.old) := by
  have := byteLength_pos p.form.opener_ne_nil
  simp only [reference, Form.wrap, byteLength_append]
  omega

theorem lt_start_of_mem_located {pos : Nat} {ps : List Passage} {x : Reference × Passage}
    (h : x ∈ located pos ps) :
    pos < x.1.span.start := by
  obtain ⟨front, p, back, rfl, rfl⟩ := mem_located.mp h
  have := reference_bounds (pos + byteLength (source [] front)) p
  simp only
  omega

theorem pairwise_located (pos : Nat) (ps : List Passage) :
    (located pos ps).Pairwise (fun a b => a.1.span.stop < b.1.span.start) := by
  induction ps generalizing pos with
  | nil => exact .nil
  | cons p ps ih =>
    refine List.pairwise_cons.mpr ⟨fun x hx => ?_, ih _⟩
    have := reference_bounds pos p
    have := lt_start_of_mem_located hx
    simp only
    omega

/-- Located references that overlap are one. -/
theorem eq_of_overlap {pos : Nat} {ps : List Passage} {x y : Reference × Passage} (hx : x ∈ located pos ps)
    (hy : y ∈ located pos ps) (hxy : x.1.span.start ≤ y.1.span.stop)
    (hyx : y.1.span.start ≤ x.1.span.stop) : x = y :=
  eq_of_not_rel (pairwise_located pos ps) hx hy (by omega) (by omega)

/-! ## Redirecting -/

theorem spliceFrom_cons (cursor : Nat) (a b c replacement : List Char) (edits : List (Span × List Char)) :
    spliceFrom cursor (a ++ (b ++ c))
      ((⟨cursor + byteLength a, cursor + byteLength a + byteLength b⟩, replacement) :: edits) =
        a ++ (replacement ++ spliceFrom (cursor + byteLength a + byteLength b) c edits) := by
  have ha : cursor + byteLength a - cursor = byteLength a := by omega
  have hb : cursor + byteLength a + byteLength b - (cursor + byteLength a) = byteLength b := by omega
  simp only [spliceFrom, ha, hb, splitBytes_append]
  rw [List.append_assoc]

/-- The text behind the cursor is `front`, which no edit meets, and the passages. -/
theorem spliceFrom_located (cursor : Nat) (front tail : List Char) (ps : List Passage) :
    spliceFrom cursor (front ++ source tail ps)
      ((located (cursor + byteLength front) ps).map fun x => x.1.redirect x.2.new) = front ++ target tail ps := by
  induction ps generalizing cursor front with
  | nil => simp [located, spliceFrom]
  | cons p ps ih =>
    -- an edit of `b` by `r` between `a` and `c`, the rest of the reference
    have edit {a b c r : List Char} (hsource : front ++ (p.lead ++ p.form.wrap p.old) = a ++ (b ++ c))
        (htarget : front ++ (p.lead ++ p.form.rewrap p.new) = a ++ (r ++ c))
        (hredirect : (p.reference (cursor + byteLength front)).redirect p.new =
          (⟨cursor + byteLength a, cursor + byteLength a + byteLength b⟩, r)) :
        spliceFrom cursor (front ++ source tail (p :: ps))
          ((located (cursor + byteLength front) (p :: ps)).map fun x => x.1.redirect x.2.new) =
            front ++ target tail (p :: ps) := by
      have hpos : cursor + byteLength front + byteLength p.lead + byteLength (p.form.wrap p.old) =
          cursor + byteLength a + byteLength b + byteLength c := by
        have := congrArg byteLength hsource
        simp only [byteLength_append] at this
        omega
      have hs : front ++ source tail (p :: ps) = a ++ (b ++ (c ++ source tail ps)) := by
        have := congrArg (· ++ source tail ps) hsource
        simpa using this
      have ht : front ++ target tail (p :: ps) = a ++ (r ++ (c ++ target tail ps)) := by
        have := congrArg (· ++ target tail ps) htarget
        simpa using this
      rw [hs, ht, located, List.map_cons, hredirect, spliceFrom_cons, hpos, ih]
    by_cases hadmits : p.form.admits p.new = true
    · refine @edit (front ++ (p.lead ++ p.form.opener)) (p.form.write p.old) p.form.closer (p.form.write p.new) ?_ ?_ ?_
      · simp [Form.wrap]
      · simp [Form.rewrap, hadmits, Form.wrap]
      · simp [Reference.redirect, reference, hadmits, Nat.add_assoc]
    · cases hform : p.form with
      | string | escaped | single => exact absurd (by simp [hform, Form.admits]) hadmits
      | bracket =>
        rw [hform] at hadmits
        refine @edit (front ++ (p.lead ++ ['['])) (encodeName p.old) [']'] (quotedKey p.new) ?_ ?_ ?_
        · simp [hform, Form.wrap, Form.opener, Form.write, Form.closer]
        · simp [hform, Form.rewrap, hadmits]
        · simp [Reference.redirect, reference, hform, hadmits, Form.opener, Form.write, Nat.add_assoc]
      | accessor =>
        rw [hform] at hadmits
        refine @edit (front ++ p.lead) ('.' :: p.old) [] ('[' :: quotedKey p.new ++ [']']) ?_ ?_ ?_
        · simp [hform, Form.wrap, Form.opener, Form.write, Form.closer]
        · simp [hform, Form.rewrap, hadmits]
        · have hdot : Char.utf8Size '.' = 1 := by decide
          simp only [Reference.redirect, reference, hform, hadmits, Bool.false_eq_true, if_false, Form.opener,
            Form.write, byteLength_append, byteLength_cons, byteLength_nil, hdot, Prod.mk.injEq, Span.mk.injEq, and_true]
          omega

/-- Redirecting the references of a layout gives the text with their new names. -/
theorem splice_located (tail : List Char) (ps : List Passage) :
    splice (source tail ps) ((located 0 ps).map fun x => x.1.redirect x.2.new) = target tail ps := by
  have := spliceFrom_located 0 [] tail ps
  simpa [splice] using this

end Passage

end FieldRemap
