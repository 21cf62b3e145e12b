/-
  FieldRemap.Proofs.Token — tokens in a text, alone or with a suffix.

  A token followed by a suffix of the host is a run of token characters, and the suffixes are
  such that the run tells which token and which suffix it is made of (`append_ending_inj`).
  Where such a run stands in a name that may end in a suffix itself, and no token character
  follows it, the token stands in the name without the suffix (`infix_of_bounded`).
-/

import FieldRemap.Convention
import FieldRemap.Placeholder
import FieldRemap.Proofs.Spelling

namespace FieldRemap

/-! ## Token characters -/

theorem inRanges_recentRanges {n : Nat} (h : n < 128) : inRanges recentRanges n = false := by
  have : ∀ n < 128, inRanges recentRanges n = false := by decide +kernel
  exact this n h

theorem isAlphabetic_or_isDecimalDigit {c : Char} (h : c.isAlphanum = true) :
    isAlphabetic c = true ∨ isDecimalDigit c = true := by
  have hlt := (toNat_of_isAlphanum h).2
  simp only [Char.isAlphanum, Bool.or_eq_true] at h
  rcases h with h | h
  · exact .inl (by simp [isAlphabetic, isLetter, hlt, h])
  · exact .inr (by simp [isDecimalDigit, hlt, h])

theorem isWord_of_isTokenChar {c : Char} (h : isTokenChar c = true) : isWord c = true := by
  have hrecent := inRanges_recentRanges (toNat_of_isTokenChar h).2
  rcases Bool.or_eq_true _ _ |>.mp h with h | h
  · rcases isAlphabetic_or_isDecimalDigit h with h | h <;> simp [isWord, h, hrecent]
  · simp [isWord, h, hrecent]

theorem isIdentifierPart_of_isTokenChar {c : Char} (h : isTokenChar c = true) : isIdentifierPart c = true := by
  rcases Bool.or_eq_true _ _ |>.mp h with h | h
  · rcases isAlphabetic_or_isDecimalDigit h with h | h <;> simp [isIdentifierPart, isIdentifierStart, isNumeric, h]
  · simp [isIdentifierPart, isIdentifierStart, h]

/-- Every form admits what starts with an underscore and is made of token characters. -/
theorem Form.admits_of_isTokenChar (form : Form) {name : List Char}
    (h : ∀ c ∈ '_' :: name, isTokenChar c = true) :
    form.admits ('_' :: name) = true := by
  cases form with
  | string | escaped | single => rfl
  | bracket =>
    apply List.all_eq_true.mpr
    intro c hc
    simp only [Bool.and_eq_true, bne_iff_ne, ne_eq]
    have hne {y : Char} (hy : isTokenChar y = false) : c ≠ y := ne_of_isTokenChar (h c hc) hy
    exact ⟨⟨⟨⟨hne (by decide), hne (by decide)⟩, hne (by decide)⟩, hne (by decide)⟩, hne (by decide)⟩
  | accessor =>
    simp only [admits, isIdentifier, Bool.and_eq_true, List.all_eq_true]
    exact ⟨by decide, fun c hc => isIdentifierPart_of_isTokenChar (h c (List.mem_cons_of_mem _ hc))⟩

def Stops (text : List Char) : Prop :=
  ∀ c rest, text = c :: rest → isTokenChar c = false

theorem Form.not_isTokenChar_of_mem_opener {form : Form} {c : Char}
    (h : c ∈ form.opener) : isTokenChar c = false := by
  have : ∀ form : Form, ∀ c ∈ form.opener, isTokenChar c = false := by
    intro form
    cases form <;> exact forall_mem_of_all (by decide)
  exact this form c h

/-! ## Suffixes -/

namespace Convention

def suffixes : List String :=
  defaults.filterMap (·.suffix?)

/-- What may follow a token in a name: nothing, or a suffix of the host. -/
def endings : List (List Char) :=
  [] :: suffixes.map (·.toList)

theorem isTokenChar_of_mem_ending {ending : List Char}
    (h : ending ∈ endings) : ∀ c ∈ ending, isTokenChar c = true := by
  have : ∀ ending ∈ endings, ending.all isTokenChar = true := by decide
  exact List.all_eq_true.mp (this ending h)

/-- No suffix ends in another one. -/
theorem eq_of_suffix {a b : List Char} (ha : a ∈ endings) (hb : b ∈ endings) (hne : a ≠ [])
    (h : a <:+ b) : a = b := by
  have : ∀ a ∈ endings, ∀ b ∈ endings, a ≠ [] → a <:+ b → a = b := by decide
  exact this a ha b hb hne h

/-- No suffix ends in an underscore. -/
theorem getLast?_ne_of_ending {ending : List Char} (h : ending ∈ endings) : ending.getLast? ≠ some '_' := by
  have : ∀ ending ∈ endings, ending.getLast? ≠ some '_' := by decide
  exact this ending h

end Convention

/-! ## Tokens -/

namespace Placeholder

open Convention

variable {token token' : Placeholder} {ending ending' : List Char}

theorem chars_eq_cons (token : Placeholder) : token.chars = '_' :: ('_' :: token.digits ++ ['_', '_']) := rfl

theorem toList_text (token : Placeholder) : token.text.toList = token.chars := String.toList_ofList

theorem isTokenChar_of_mem_chars {c : Char} (h : c ∈ token.chars) : isTokenChar c = true := by
  simp only [chars, List.mem_append, List.mem_cons, List.not_mem_nil, or_false] at h
  rcases h with (rfl | rfl | h) | rfl | rfl
  · decide
  · decide
  · have := token.isDigit_of_mem c h
    simp [isTokenChar, Char.isAlphanum, this]
  · decide
  · decide

theorem chars_inj (h : token.chars = token'.chars) : token = token' := by
  have hdigits : token.digits = token'.digits := by simpa [chars] using h
  cases token
  cases token'
  simpa using hdigits

theorem text_inj (h : token.text = token'.text) : token = token' :=
  chars_inj (by rw [← toList_text, ← toList_text, h])

theorem isTokenChar_of_mem_append (hending : ending ∈ endings) :
    ∀ c ∈ token.chars ++ ending, isTokenChar c = true := by
  intro c hc
  rcases List.mem_append.mp hc with hc | hc
  · exact isTokenChar_of_mem_chars hc
  · exact isTokenChar_of_mem_ending hending c hc

/-- What ends in a token and a suffix, and in another suffix as well, ends in one suffix. -/
theorem ending_eq {front name : List Char} (h : ending ∈ endings) (h' : ending' ∈ endings) (hne : ending' ≠ [])
    (he : (front ++ token.chars) ++ ending = name ++ ending') : ending = ending' ∧ front ++ token.chars = name := by
  suffices heq : ending = ending' by
    subst heq
    exact ⟨rfl, List.append_cancel_right he⟩
  rcases List.append_eq_append_iff.mp he with ⟨y, rfl, hy⟩ | ⟨y, hy, rfl⟩
  · -- the second suffix is the end of the first
    exact (eq_of_suffix h' h hne ⟨y, hy.symm⟩).symm
  · cases ending with
    | cons c ending => exact eq_of_suffix h h' (List.cons_ne_nil _ _) ⟨y, rfl⟩
    | nil =>
      -- the suffix would end where the token does, in an underscore
      rw [List.append_nil] at hne h'
      have hlast : (front ++ ('_' :: '_' :: token.digits ++ ['_'])) ++ ['_'] = name ++ y := by
        rw [← hy]
        simp [chars]
      obtain ⟨init, rfl, _⟩ := prefix_of_concat_eq hne hlast
      exact absurd List.getLast?_concat (getLast?_ne_of_ending h')

/-- A token and a suffix can be read off the two together. -/
theorem append_ending_inj (h : ending ∈ endings) (h' : ending' ∈ endings)
    (he : token.chars ++ ending = token'.chars ++ ending') : token = token' ∧ ending = ending' := by
  suffices hboth : token.chars = token'.chars ∧ ending = ending' from ⟨chars_inj hboth.1, hboth.2⟩
  by_cases hne : ending' = []
  · by_cases hne' : ending = []
    · subst hne hne'
      exact ⟨by simpa using he, rfl⟩
    · obtain ⟨heq, hchars⟩ := @ending_eq token' _ _ [] token.chars h' h hne' he.symm
      exact ⟨hchars.symm, heq.symm⟩
  · obtain ⟨heq, hchars⟩ := @ending_eq token _ _ [] token'.chars h h' hne he
    exact ⟨hchars, heq⟩

/-- Where a token with a suffix stands in a name with a suffix, and no token character follows, the token
    stands in the name. -/
theorem infix_of_bounded {front back name : List Char} (h : ending ∈ endings) (h' : ending' ∈ endings)
    (hback : Stops back) (he : front ++ ((token.chars ++ ending) ++ back) = name ++ ending') :
    token.chars <:+: name := by
  have he : (front ++ token.chars ++ ending) ++ back = name ++ ending' := by simpa using he
  have whole {rest : List Char} (hname : name = (front ++ token.chars ++ ending) ++ rest) : token.chars <:+: name :=
    ⟨front, ending ++ rest, by simp [hname]⟩
  cases back with
  | cons c back =>
    rcases List.append_eq_append_iff.mp he with ⟨y, hname, _⟩ | ⟨y, _, hending⟩
    · exact whole hname
    · have hc : c ∈ ending' := hending ▸ List.mem_append_right y List.mem_cons_self
      have := hback c back rfl
      rw [isTokenChar_of_mem_ending h' c hc] at this
      cases this
  | nil =>
    rw [List.append_nil] at he
    by_cases hne : ending' = []
    · exact @whole [] (by simpa [hne] using he.symm)
    · obtain ⟨_, hname⟩ := ending_eq h h' hne he
      exact ⟨front, [], by simp [hname]⟩

end Placeholder

end FieldRemap
