/-
  FieldRemap.Proofs.TokenText — the texts that are tokens, and their order.

  A text is a token exactly when it is digits between double underscores, the number they spell
  being one of 64 bits (`Placeholder.isSome_parse?`), and the token is kept as it is written
  (`Placeholder.parse?_eq_some`). So two tokens of one index may be written differently, but no
  token begins another one (`Placeholder.eq_of_isPrefix`). They are in one order, by index and
  then by text, in which only a token itself is both before and behind it.
-/

import FieldRemap.Proofs.Token
import Mathlib.Order.Defs.Unbundled

namespace FieldRemap

namespace Placeholder

variable {a b c token token' : Placeholder} {text : String}

/-! ## Reading -/

theorem inner?_eq_some {chars inner : List Char} :
    inner? chars = some inner ↔ chars = '_' :: '_' :: inner ++ ['_', '_'] := by
  constructor
  · intro h
    unfold inner? at h
    split at h
    · next rest =>
      split at h
      · next reversed hreverse =>
        obtain rfl := Option.some.inj h
        have hrest : rest = reversed.reverse ++ ['_', '_'] := by
          rw [← rest.reverse_reverse, hreverse]
          simp
        rw [hrest]
        rfl
      · cases h
    · cases h
  · rintro rfl
    simp [inner?]

/-- A token is read from the text it is written as, if its index is in range, and from no other. -/
theorem parse?_eq_some : parse? text = some token ↔ token.text = text ∧ token.index < indexLimit := by
  constructor
  · intro h
    unfold parse? at h
    split at h
    · cases h
    · cases h
    · next first rest hinner =>
      split at h
      · obtain ⟨hlt, heq⟩ := Option.ite_none_right_eq_some.mp h
        obtain rfl := Option.some.inj heq
        have hchars : text.toList = '_' :: '_' :: (first :: rest) ++ ['_', '_'] := inner?_eq_some.mp hinner
        refine ⟨?_, hlt⟩
        rw [← String.ofList_toList (s := text), hchars]
        rfl
      · cases h
  · rintro ⟨rfl, hlt⟩
    obtain ⟨digits, hne, hdigits⟩ := token
    obtain ⟨d, ds, rfl⟩ := List.exists_cons_of_ne_nil hne
    have hinner : inner? (Placeholder.text ⟨d :: ds, hne, hdigits⟩).toList = some (d :: ds) :=
      inner?_eq_some.mpr (toList_text _)
    rw [parse?, hinner]
    simp only
    rw [dif_pos (List.all_eq_true.mpr hdigits), if_pos hlt]

/-- Two underscores, digits that spell a number of 64 bits, and two underscores. -/
def IsToken (text : String) : Prop :=
  ∃ digits : List Char, digits ≠ [] ∧ (∀ c ∈ digits, c.isDigit = true) ∧ Nat.ofDigitChars 10 digits 0 < wordLimit ∧
    text = "__" ++ String.ofList digits ++ "__"

theorem text_eq (token : Placeholder) : token.text = "__" ++ String.ofList token.digits ++ "__" := by
  apply String.toList_inj.mp
  simp [toList_text, chars]

theorem isSome_parse? : (parse? text).isSome = true ↔ IsToken text := by
  rw [Option.isSome_iff_exists]
  constructor
  · rintro ⟨token, htoken⟩
    obtain ⟨rfl, hlt⟩ := parse?_eq_some.mp htoken
    exact ⟨token.digits, token.digits_ne_nil, token.isDigit_of_mem, hlt, token.text_eq⟩
  · rintro ⟨digits, hne, hdigits, hlt, rfl⟩
    exact ⟨⟨digits, hne, hdigits⟩, parse?_eq_some.mpr ⟨text_eq _, hlt⟩⟩

/-! ## Indices -/

theorem index_ofIndex (index : Nat) : (ofIndex index).index = index := Nat.ofDigitChars_ten_toDigits

theorem ofIndex_inj {i j : Nat} (h : ofIndex i = ofIndex j) : i = j := by
  rw [← index_ofIndex i, h, index_ofIndex]

/-! ## Beginnings -/

/-- No token begins another one. -/
theorem eq_of_isPrefix {text : List Char} (h : token.chars <+: text) (h' : token'.chars <+: text) :
    token = token' := by
  have digits {token : Placeholder} {rest : List Char} :
      ((token.digits ++ ('_' :: rest)).takeWhile Char.isDigit) = token.digits := by
    rw [List.takeWhile_append_of_pos token.isDigit_of_mem, List.takeWhile_cons_of_neg (by decide), List.append_nil]
  obtain ⟨rest, rfl⟩ := h
  obtain ⟨rest', he⟩ := h'
  simp only [chars, List.cons_append, List.append_assoc, List.cons.injEq, true_and] at he
  have hdigits := congrArg (List.takeWhile Char.isDigit) he
  rw [List.nil_append, digits, digits] at hdigits
  cases token
  cases token'
  simpa using hdigits.symm

/-! ## Order -/

theorem le_iff : a.le b = true ↔ a.index < b.index ∨ a.index = b.index ∧ a.text ≤ b.text := by
  simp [le]

theorem le_refl (a : Placeholder) : a.le a = true :=
  le_iff.mpr (.inr ⟨rfl, String.le_refl _⟩)

theorem le_trans (a b c : Placeholder) (hab : a.le b = true) (hbc : b.le c = true) : a.le c = true := by
  rw [le_iff] at *
  rcases hab with hab | ⟨hab, htext⟩ <;> rcases hbc with hbc | ⟨hbc, htext'⟩
  · exact .inl (by omega)
  · exact .inl (by omega)
  · exact .inl (by omega)
  · exact .inr ⟨hab.trans hbc, String.le_trans htext htext'⟩

theorem le_total (a b : Placeholder) : (a.le b || b.le a) = true := by
  rw [Bool.or_eq_true, le_iff, le_iff]
  rcases Nat.lt_trichotomy a.index b.index with h | h | h
  · exact .inl (.inl h)
  · exact (String.le_total a.text b.text).imp (fun ht => .inr ⟨h, ht⟩) fun ht => .inr ⟨h.symm, ht⟩
  · exact .inr (.inl h)

theorem le_antisymm (hab : a.le b = true) (hba : b.le a = true) : a = b := by
  rw [le_iff] at hab hba
  have htext : a.text ≤ b.text ∧ b.text ≤ a.text := by
    rcases hab with hab | ⟨hab, htext⟩ <;> rcases hba with hba | ⟨hba, htext'⟩
    · omega
    · omega
    · omega
    · exact ⟨htext, htext'⟩
  exact text_inj (String.le_antisymm htext.1 htext.2)

theorem isLinearOrder_le : IsLinearOrder Placeholder (fun a b => a.le b = true) where
  refl := le_refl
  trans := le_trans
  antisymm _ _ := le_antisymm
  total a b := by simpa using le_total a b

/-- The tokens of the indices of 64 bits are read back, each with its index. A text is read as a token exactly
    when it is written as one, and is kept as it is. The order of tokens is total, takes the lower index first and
    has two tokens equal only if they are written alike; and no token begins another one. -/
theorem tokens_exact :
    (∀ index < wordLimit, parse? (ofIndex index).text = some (ofIndex index) ∧ (ofIndex index).index = index) ∧
      Function.Injective (fun index => (ofIndex index).text) ∧
      (∀ text, (parse? text).isSome = true ↔ IsToken text) ∧
      (∀ text token, parse? text = some token → token.text = text) ∧
      IsLinearOrder Placeholder (fun a b => a.le b = true) ∧
      (∀ a b : Placeholder, a.index < b.index → a.le b = true ∧ b.le a = false) ∧
      (∀ a b : Placeholder, a.le b = true ∧ b.le a = true ↔ a.text = b.text) ∧
      ∀ a b : Placeholder, a.chars <+: b.chars → a = b := by
  refine ⟨fun index hlt => ?_, fun i j h => ofIndex_inj (text_inj h), fun _ => isSome_parse?,
    fun _ _ h => (parse?_eq_some.mp h).1, isLinearOrder_le, fun a b hlt => ?_, fun a b => ?_, fun a b h => ?_⟩
  · have hindex := index_ofIndex index
    exact ⟨parse?_eq_some.mpr ⟨rfl, hindex.symm ▸ hlt⟩, hindex⟩
  · refine ⟨le_iff.mpr (.inl hlt), Bool.eq_false_iff.mpr fun hle => ?_⟩
    rw [le_iff] at hle
    omega
  · constructor
    · rintro ⟨hab, hba⟩
      rw [le_antisymm hab hba]
    · intro h
      obtain rfl := text_inj h
      exact ⟨le_refl a, le_refl a⟩
  · exact eq_of_isPrefix h List.prefix_rfl

/-- Two tokens of one index: the one with leading zeros keeps them and stands first. -/
theorem tokens_exact_padded : 7 < wordLimit ∧ parse? (ofIndex 7).text = some (ofIndex 7) ∧
    ∃ padded, parse? "__007__" = some padded ∧ padded.text = "__007__" ∧ padded.index = 7 ∧
      padded.le (ofIndex 7) = true ∧ (ofIndex 7).le padded = false ∧ ¬ padded.chars <+: (ofIndex 7).chars := by
  let padded : Placeholder := ⟨['0', '0', '7'], by decide, forall_mem_of_all (by decide)⟩
  obtain ⟨hread, -, -, hkept, -, -, hsame, hbegins⟩ := tokens_exact
  have hparse : parse? "__007__" = some padded := by decide
  have htext : padded.text = "__007__" := hkept _ _ hparse
  have hne : padded.text ≠ (ofIndex 7).text := by decide
  have hle : padded.le (ofIndex 7) = true := by decide
  refine ⟨by decide, (hread 7 (by decide)).1, padded, hparse, htext, by decide, hle, ?_, ?_⟩
  · exact Bool.eq_false_iff.mpr fun hge => hne ((hsame _ _).mp ⟨hle, hge⟩)
  · intro hprefix
    exact hne (congrArg Placeholder.text (hbegins _ _ hprefix))

/-- A third underscore is no digit, and a number past 64 bits is no index. -/
example : parse? "___1__" = none ∧ parse? "__18446744073709551616__" = none := by decide

end Placeholder

end FieldRemap
