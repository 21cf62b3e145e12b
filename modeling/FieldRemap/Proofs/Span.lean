/-
  FieldRemap.Proofs.Span — byte lengths, and cuts between characters.

  Every character takes a byte at least, so two beginnings of one text are compared by
  their byte lengths (`prefix_of_byteLength_le`, `eq_of_byteLength_eq`), a character stands at a
  position (`StandsAt`) and no other there, and a cut after the bytes of a beginning falls behind
  it (`splitBytes_append`).
-/

import FieldRemap.Proofs.Lists
import FieldRemap.Text.Span

namespace FieldRemap

@[simp] theorem byteLength_nil : byteLength [] = 0 := rfl

@[simp] theorem byteLength_cons (c : Char) (text : List Char) :
    byteLength (c :: text) = c.utf8Size + byteLength text := rfl

@[simp] theorem byteLength_append (a b : List Char) : byteLength (a ++ b) = byteLength a + byteLength b := by
  induction a with
  | nil => simp
  | cons c a ih => simp only [List.cons_append, byteLength_cons, ih]; omega

theorem byteLength_pos {text : List Char} (h : text ≠ []) : 0 < byteLength text := by
  cases text with
  | nil => exact absurd rfl h
  | cons c text =>
    have := c.utf8Size_pos
    simp only [byteLength_cons]; omega

theorem eq_nil_of_byteLength_eq_zero {text : List Char} (h : byteLength text = 0) : text = [] := by
  by_cases hn : text = []
  · exact hn
  · have := byteLength_pos hn; omega

theorem byteLength_le_of_isPrefix {a b : List Char} (h : a <+: b) : byteLength a ≤ byteLength b := by
  obtain ⟨c, rfl⟩ := h
  simp

/-! ## Beginnings of one text -/

theorem eq_of_byteLength_eq {a b text : List Char} (ha : a <+: text) (hb : b <+: text)
    (h : byteLength a = byteLength b) : a = b := by
  rcases List.prefix_or_prefix_of_prefix ha hb with ⟨c, rfl⟩ | ⟨c, rfl⟩
  · have hc : c = [] := eq_nil_of_byteLength_eq_zero (by simp at h; omega)
    simp [hc]
  · have hc : c = [] := eq_nil_of_byteLength_eq_zero (by simp at h; omega)
    simp [hc]

theorem prefix_of_byteLength_le {a b text : List Char} (ha : a <+: text) (hb : b <+: text)
    (h : byteLength a ≤ byteLength b) : a <+: b := by
  rcases List.prefix_or_prefix_of_prefix ha hb with hab | hba
  · exact hab
  · rw [eq_of_byteLength_eq ha hb (Nat.le_antisymm h (byteLength_le_of_isPrefix hba))]

/-! ## Characters at positions -/

def StandsAt (text : List Char) (c : Char) (pos : Nat) : Prop :=
  ∃ before after, text = before ++ c :: after ∧ pos = byteLength before

/-- At a position stands one character. -/
theorem StandsAt.unique {text : List Char} {c d : Char} {pos : Nat} (h : StandsAt text c pos)
    (h' : StandsAt text d pos) : c = d := by
  obtain ⟨before, after, htext, hpos⟩ := h
  obtain ⟨before', after', htext', hpos'⟩ := h'
  obtain rfl : before = before' := eq_of_byteLength_eq (htext ▸ List.prefix_append before _)
    (htext' ▸ List.prefix_append before' _) (hpos.symm.trans hpos')
  exact (List.cons.inj (List.append_cancel_left (htext.symm.trans htext'))).1

theorem StandsAt.lt_byteLength {text : List Char} {c : Char} {pos : Nat} (h : StandsAt text c pos) :
    pos < byteLength text := by
  obtain ⟨before, after, rfl, rfl⟩ := h
  have := c.utf8Size_pos
  simp only [byteLength_append, byteLength_cons]
  omega

/-- What stands in two texts behind each other stands in the first, or so much further on in the second. -/
theorem standsAt_append {a b : List Char} {c : Char} {pos : Nat} :
    StandsAt (a ++ b) c pos ↔ StandsAt a c pos ∨ ∃ k, StandsAt b c k ∧ pos = k + byteLength a := by
  constructor
  · intro h
    obtain ⟨before, after, htext, rfl⟩ := h
    rcases List.append_eq_append_iff.mp htext with ⟨inner, rfl, rfl⟩ | ⟨inner, rfl, hcons⟩
    · exact .inr ⟨byteLength inner, ⟨inner, after, rfl, rfl⟩, by rw [byteLength_append, Nat.add_comm]⟩
    · cases inner with
      | nil => exact .inr ⟨0, ⟨[], after, hcons.symm, rfl⟩, by simp⟩
      | cons d inner =>
        obtain ⟨rfl, -⟩ := List.cons.inj hcons
        exact .inl ⟨before, inner, rfl, rfl⟩
  · intro h
    rcases h with ⟨before, after, rfl, rfl⟩ | ⟨k, ⟨before, after, rfl, rfl⟩, rfl⟩
    · exact ⟨before, after ++ b, by simp, rfl⟩
    · exact ⟨a ++ before, after, by simp, by rw [byteLength_append, Nat.add_comm]⟩

/-! ## Cuts -/

theorem splitBytesFrom_append (taken a b : List Char) :
    splitBytesFrom taken (byteLength a) (a ++ b) = (taken.reverse ++ a, b) := by
  induction a generalizing taken with
  | nil => cases b <;> simp [splitBytesFrom]
  | cons c a ih =>
    have hc : c.utf8Size + byteLength a ≠ 0 := by have := c.utf8Size_pos; omega
    rw [List.cons_append, byteLength_cons, splitBytesFrom, if_neg hc, Nat.add_sub_cancel_left, ih]
    simp

theorem splitBytes_append (a b : List Char) : splitBytes (byteLength a) (a ++ b) = (a, b) := by
  simp [splitBytes, splitBytesFrom_append]

theorem dropLeading_eq_some {part text rest : List Char} :
    dropLeading part text = some rest ↔ text = part ++ rest := by
  induction part generalizing text with
  | nil => simp [dropLeading, eq_comm]
  | cons p part ih =>
    cases text with
    | nil => simp [dropLeading]
    | cons c text =>
      by_cases h : p = c
      · simp [dropLeading, h, ih]
      · simp [dropLeading, h, Ne.symm h]

theorem occursIn_iff {part text : List Char} : occursIn part text = true ↔ part <:+: text := by
  induction text with
  | nil => simp [occursIn]
  | cons c text ih => simp [occursIn, ih, List.infix_cons_iff]

end FieldRemap
