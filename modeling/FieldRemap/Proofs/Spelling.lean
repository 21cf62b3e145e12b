/-
  FieldRemap.Proofs.Spelling — how the characters of a name are written.

  In a JSON string a character stands for itself, behind a backslash, or, if it is a control
  character, as a backslash and letters and digits (`Encoded`). So no character's writing begins
  another's, and a name can be read back from its writing in any form (`Form.write_inj`).

  The characters of tokens are written as themselves and no escape holds an underscore, so
  what starts with an underscore and is made of such characters occurs in a written name
  exactly when it occurs in the name (`Form.infix_write`).
-/

import FieldRemap.Proofs.Context
import FieldRemap.Proofs.Lists
import FieldRemap.Proofs.Span
import FieldRemap.Reference.Form

namespace FieldRemap

/-! ## JSON strings -/

theorem ne_of_isAlphanum {x y : Char} (hx : x.isAlphanum = true) (hy : y.isAlphanum = false) : x ≠ y := by
  intro he
  subst he
  rw [hx] at hy
  cases hy

theorem isAlphanum_hexDigit {n : Nat} (h : n < 16) : (hexDigit n).isAlphanum = true := by
  have : ∀ n < 16, (hexDigit n).isAlphanum = true := by decide
  exact this n h

def controlLetters : List (Char × Char) :=
  [('\x08', 'b'), ('\x0c', 'f'), ('\n', 'n'), ('\r', 'r'), ('\t', 't')]

/-- How a character is written in a JSON string: as it is, behind a backslash, as a letter for it, or by its number. -/
inductive Escaped (c : Char) : List Char → Prop
  | plain : c ≠ '"' → c ≠ '\\' → 32 ≤ c.toNat → Escaped c [c]
  | mark : c = '"' ∨ c = '\\' → Escaped c ['\\', c]
  | letter (k : Char) : (c, k) ∈ controlLetters → Escaped c ['\\', k]
  | number : c.toNat < 32 → Escaped c ['\\', 'u', '0', '0', hexDigit (c.toNat / 16), hexDigit (c.toNat % 16)]

theorem escaped_encodeChar (c : Char) : Escaped c (encodeChar c) := by
  have ofNat {n : Nat} (h : c.toNat = n) : c = Char.ofNat n := by rw [← h, Char.ofNat_toNat]
  unfold encodeChar
  by_cases hq : c = '"'
  · rw [if_pos hq, hq]
    exact .mark (.inl rfl)
  by_cases hb : c = '\\'
  · rw [if_neg hq, if_pos hb, hb]
    exact .mark (.inr rfl)
  rw [if_neg hq, if_neg hb]
  split
  · next h => exact ofNat h ▸ .letter 'b' (by decide)
  · split
    · next h => exact ofNat h ▸ .letter 'f' (by decide)
    · split
      · next h => exact h ▸ .letter 'n' (by decide)
      · split
        · next h => exact h ▸ .letter 'r' (by decide)
        · split
          · next h => exact h ▸ .letter 't' (by decide)
          · split
            · next h => exact .number h
            · next h => exact .plain hq hb (Nat.not_lt.mp h)

inductive Encoded (c : Char) : List Char → Prop
  | plain : c ≠ '"' → c ≠ '\\' → Encoded c [c]
  | pair : c = '"' ∨ c = '\\' → Encoded c ['\\', c]
  | control (k : Char) (rest : List Char) : c.toNat < 32 → (∀ x ∈ k :: rest, x.isAlphanum = true) →
      Encoded c ('\\' :: k :: rest)

theorem encoded_encodeChar (c : Char) : Encoded c (encodeChar c) := by
  have h := escaped_encodeChar c
  generalize encodeChar c = u at h
  cases h with
  | plain hq hb _ => exact .plain hq hb
  | mark h => exact .pair h
  | letter k h =>
    have hletters : ∀ x ∈ controlLetters, x.1.toNat < 32 ∧ x.2.isAlphanum = true := by decide
    obtain ⟨hlt, hk⟩ := hletters _ h
    exact .control k [] hlt (List.forall_mem_singleton.mpr hk)
  | number h =>
    refine .control 'u' _ h ?_
    intro x hx
    simp only [List.mem_cons, List.not_mem_nil, or_false] at hx
    rcases hx with rfl | rfl | rfl | rfl | rfl
    · decide
    · decide
    · decide
    · exact isAlphanum_hexDigit (by omega)
    · exact isAlphanum_hexDigit (by omega)

theorem encodeChar_of_ge {c : Char} (hq : c ≠ '"') (hb : c ≠ '\\') (h : 32 ≤ c.toNat) : encodeChar c = [c] := by
  have hn : c ≠ '\n' := by intro he; subst he; exact absurd h (by decide)
  have hr : c ≠ '\r' := by intro he; subst he; exact absurd h (by decide)
  have ht : c ≠ '\t' := by intro he; subst he; exact absurd h (by decide)
  simp [encodeChar, hq, hb, hn, hr, ht, show c.toNat ≠ 8 by omega, show c.toNat ≠ 12 by omega,
    show ¬ c.toNat < 32 by omega]

theorem toNat_of_isAlphanum {c : Char} (h : c.isAlphanum = true) : 32 ≤ c.toNat ∧ c.toNat < 128 := by
  delta Char.isAlphanum Char.isAlpha Char.isUpper Char.isLower Char.isDigit at h
  simp only [Bool.or_eq_true, Bool.and_eq_true, decide_eq_true_eq, ge_iff_le, UInt32.le_iff_toNat_le] at h
  have : c.toNat = c.val.toNat := rfl
  rcases h with (⟨h1, h2⟩ | ⟨h1, h2⟩) | ⟨h1, h2⟩ <;> simp at h1 h2 <;> omega

def isTokenChar (c : Char) : Bool :=
  c.isAlphanum || c == '_'

theorem isTokenChar_of_isAlphanum {c : Char} (h : c.isAlphanum = true) : isTokenChar c = true := by
  simp [isTokenChar, h]

theorem ne_of_isTokenChar {x y : Char} (hx : isTokenChar x = true) (hy : isTokenChar y = false) : x ≠ y := by
  intro he
  subst he
  rw [hx] at hy
  cases hy

theorem toNat_of_isTokenChar {c : Char} (h : isTokenChar c = true) : 32 ≤ c.toNat ∧ c.toNat < 128 := by
  rcases Bool.or_eq_true _ _ |>.mp h with h | h
  · exact toNat_of_isAlphanum h
  · rw [beq_iff_eq.mp h]; decide

theorem encodeChar_of_isTokenChar {c : Char} (h : isTokenChar c = true) : encodeChar c = [c] :=
  encodeChar_of_ge (ne_of_isTokenChar h (by decide)) (ne_of_isTokenChar h (by decide)) (toNat_of_isTokenChar h).1

theorem encodeName_of_isTokenChar {text : List Char} (h : ∀ c ∈ text, isTokenChar c = true) :
    encodeName text = text := by
  induction text with
  | nil => rfl
  | cons c text ih =>
    simp only [encodeName, List.flatMap_cons, encodeChar_of_isTokenChar (h c List.mem_cons_self)]
    exact congrArg (c :: ·) (ih fun d hd => h d (List.mem_cons_of_mem _ hd))

theorem encodeName_append (a b : List Char) : encodeName (a ++ b) = encodeName a ++ encodeName b :=
  List.flatMap_append

theorem escapeSingle_append (a b : List Char) : escapeSingle (a ++ b) = escapeSingle a ++ escapeSingle b :=
  List.flatMap_append

/-! ## The forms -/

theorem isBareKey_iff {name : List Char} :
    isBareKey name = true ↔ ∀ c ∈ name, c ∉ ['[', ']', '\'', '"', '\\'] := by
  simp [isBareKey, and_assoc]

namespace Form

theorem write_append (form : Form) (a b : List Char) : form.write (a ++ b) = form.write a ++ form.write b := by
  cases form <;> simp [write, encodeName_append, escapeSingle_append]

@[simp] theorem write_nil (form : Form) : form.write [] = [] := by
  cases form <;> rfl

theorem write_cons (form : Form) (c : Char) (name : List Char) :
    form.write (c :: name) = form.write [c] ++ form.write name :=
  form.write_append [c] name

theorem write_of_isTokenChar (form : Form) {text : List Char} (h : ∀ c ∈ text, isTokenChar c = true) :
    form.write text = text := by
  have he := encodeName_of_isTokenChar h
  have hs : escapeSingle text = text := by
    induction text with
    | nil => rfl
    | cons c text ih =>
      have hc := h c List.mem_cons_self
      have hrest := fun d hd => h d (List.mem_cons_of_mem _ hd)
      simp only [escapeSingle, List.flatMap_cons, escapeSingleChar,
        ne_of_isTokenChar hc (show isTokenChar '\\' = false by decide),
        ne_of_isTokenChar hc (show isTokenChar '\'' = false by decide), if_false]
      exact congrArg (c :: ·) (ih hrest (encodeName_of_isTokenChar hrest))
  cases form <;> simp [write, he, hs]

end Form

inductive EncodedTwice (c : Char) : List Char → Prop
  | plain : c ≠ '"' → c ≠ '\\' → EncodedTwice c [c]
  | pair : c = '"' ∨ c = '\\' → EncodedTwice c ['\\', '\\', '\\', c]
  | control (k : Char) (rest : List Char) : (∀ x ∈ k :: rest, x.isAlphanum = true) →
      EncodedTwice c ('\\' :: '\\' :: k :: rest)

theorem encodedTwice (c : Char) : EncodedTwice c (encodeName (encodeChar c)) := by
  have h := encoded_encodeChar c
  generalize he : encodeChar c = u at h
  cases h with
  | plain hq hb => simpa [encodeName, he] using EncodedTwice.plain hq hb
  | pair hc =>
    have hw : encodeName ['\\', c] = ['\\', '\\', '\\', c] := by rcases hc with rfl | rfl <;> rfl
    exact hw ▸ EncodedTwice.pair hc
  | control k rest _ hk =>
    have hw : encodeName ('\\' :: k :: rest) = '\\' :: '\\' :: k :: rest := by
      have := encodeName_of_isTokenChar (fun x hx => isTokenChar_of_isAlphanum (hk x hx))
      calc encodeName ('\\' :: k :: rest) = encodeName ['\\'] ++ encodeName (k :: rest) :=
            encodeName_append ['\\'] (k :: rest)
        _ = '\\' :: '\\' :: k :: rest := by rw [this]; rfl
    exact hw ▸ EncodedTwice.control k rest hk

inductive EncodedSingle (c : Char) : List Char → Prop
  | backslash : c = '\\' → EncodedSingle c ['\\', '\\', '\\', '\\']
  | quote : c = '\'' → EncodedSingle c ['\\', '\\', '\'']
  | other (u : List Char) : c ≠ '\\' → c ≠ '\'' → Encoded c u → EncodedSingle c u

theorem encodedSingle (c : Char) : EncodedSingle c (encodeName (escapeSingleChar c)) := by
  unfold escapeSingleChar
  split
  · next h => subst h; exact .backslash rfl
  · next hb =>
    split
    · next h => subst h; exact .quote rfl
    · next hs =>
      have : encodeName [c] = encodeChar c := by simp [encodeName]
      exact this ▸ .other _ hb hs (encoded_encodeChar c)

/-! ## Reading what is written -/

namespace Steady

variable {inner : ExpressionContext}

theorem of_isAlphanum {text : List Char} (h : ∀ x ∈ text, x.isAlphanum = true) : Steady inner text := by
  induction text with
  | nil => exact nil
  | cons c text ih =>
    have hc := h c List.mem_cons_self
    have hrest := ih fun d hd => h d (List.mem_cons_of_mem _ hd)
    exact append (singleton (ne_of_isAlphanum hc (by decide)) (ne_of_isAlphanum hc (by decide))
      fun hs => absurd hs (ne_of_isAlphanum hc (by decide))) hrest

theorem control {k : Char} {rest : List Char} (h : ∀ x ∈ k :: rest, x.isAlphanum = true) :
    Steady inner ('\\' :: k :: rest) := by
  have hk := h k List.mem_cons_self
  exact append (escape (ne_of_isAlphanum hk (by decide)) (ne_of_isAlphanum hk (by decide)))
    (of_isAlphanum fun x hx => h x (List.mem_cons_of_mem _ hx))

theorem backslashed_control {k : Char} {rest : List Char} (hi : inner ≠ .code)
    (h : ∀ x ∈ k :: rest, x.isAlphanum = true) : Steady inner ('\\' :: '\\' :: k :: rest) := by
  have hk := h k List.mem_cons_self
  have hnext : (Context.literal inner true).next k = .literal inner false := by
    simp [Context.next, ne_of_isAlphanum hk (show Char.isAlphanum '"' = false by decide),
      ne_of_isAlphanum hk (show Char.isAlphanum '\\' = false by decide)]
  have hrest : Steady inner rest := of_isAlphanum fun x hx => h x (List.mem_cons_of_mem _ hx)
  refine backslashed hi (Context.through_cons.mpr ⟨⟨rfl, rfl⟩, ?_⟩) ?_
  · rw [hnext]; exact hrest.within
  · rw [Context.read_cons, hnext]; exact hrest.back

/-- The content of an expression string between escaped quotes. -/
theorem encodeName_twice (name : List Char) : Steady .doubleQuoted (encodeName (encodeName name)) := by
  induction name with
  | nil => exact nil
  | cons c name ih =>
    have hc : Steady .doubleQuoted (encodeName (encodeChar c)) := by
      have h := encodedTwice c
      generalize encodeName (encodeChar c) = u at h
      cases h with
      | plain hq hb => exact singleton hq hb fun _ => rfl
      | pair hc =>
        refine backslashed (by decide) ?_ ?_
        · simp only [Context.through_cons, Context.through_nil, Within]
          rcases hc with rfl | rfl <;> decide
        · rcases hc with rfl | rfl <;> rfl
      | control k rest hk => exact backslashed_control (by decide) hk
    have : encodeName (encodeName (c :: name)) = encodeName (encodeChar c) ++ encodeName (encodeName name) := by
      rw [← encodeName_append]; rfl
    exact this ▸ hc.append ih

/-- The content of a single-quoted expression string. -/
theorem encodeName_escapeSingle (name : List Char) : Steady .singleQuoted (encodeName (escapeSingle name)) := by
  induction name with
  | nil => exact nil
  | cons c name ih =>
    have hc : Steady .singleQuoted (encodeName (escapeSingleChar c)) := by
      have h := encodedSingle c
      generalize encodeName (escapeSingleChar c) = u at h
      cases h with
      | backslash _ =>
        refine backslashed (by decide) ?_ rfl
        simp only [Context.through_cons, Context.through_nil, Within]
        decide
      | quote _ =>
        refine backslashed (by decide) ?_ rfl
        simp only [Context.through_cons, Context.through_nil, Within]
        decide
      | other u hb hs he =>
        cases he with
        | plain hq _ => exact singleton hq hb fun h => absurd h hs
        | pair hc =>
          rcases hc with rfl | rfl
          · refine ⟨?_, rfl⟩
            simp only [Context.through_cons, Context.through_nil, Within]
            decide
          · exact absurd rfl hb
        | control k rest _ hk => exact control hk
    have : encodeName (escapeSingle (c :: name)) =
        encodeName (escapeSingleChar c) ++ encodeName (escapeSingle name) := by
      rw [← encodeName_append]; rfl
    exact this ▸ hc.append ih

/-- A bare key, whatever the expression is in. -/
theorem encodeName_of_isBareKey {name : List Char} (h : isBareKey name = true) : Steady inner
    (encodeName name) := by
  apply flatMap
  intro c hc
  have hc := isBareKey_iff.mp h c hc
  simp only [List.mem_cons, List.not_mem_nil, or_false, not_or] at hc
  obtain ⟨_, _, hs, hq, hb⟩ := hc
  have he := encoded_encodeChar c
  generalize encodeChar c = u at he
  cases he with
  | plain _ _ => exact singleton hq hb fun h => absurd h hs
  | pair hc => rcases hc with rfl | rfl <;> contradiction
  | control k rest _ hk => exact control hk

end Steady

/-- The content of a double-quoted literal is read inside the literal, and no escape is open behind it. -/
theorem through_encodeName (inner : ExpressionContext) (escaped : Bool) (name : List Char) :
    Context.Through (fun c => c.inString = true) (.literal inner escaped) (encodeName name) ∧
      ∃ inner' escaped', (Context.literal inner escaped).read (encodeName name) = .literal inner' escaped' := by
  induction name generalizing inner escaped with
  | nil => exact ⟨Context.through_nil.mpr rfl, inner, escaped, rfl⟩
  | cons c name ih =>
    have hc : Context.Through (fun c => c.inString = true) (.literal inner escaped) (encodeChar c) ∧
        ∃ inner' escaped', (Context.literal inner escaped).read (encodeChar c) = .literal inner' escaped' := by
      have he := encoded_encodeChar c
      generalize encodeChar c = u at he
      cases he with
      | plain hq hb =>
        simp only [Context.through_cons, Context.through_nil, Context.read_cons, Context.read_nil]
        cases escaped <;> simp [Context.next, hq, hb, Context.inString]
      | pair hc =>
        simp only [Context.through_cons, Context.through_nil, Context.read_cons, Context.read_nil]
        rcases hc with rfl | rfl <;> cases escaped <;> simp [Context.next, Context.inString]
      | control k rest _ hk =>
        have hk0 := hk k List.mem_cons_self
        have hnext : ((Context.literal inner escaped).next '\\').next k = .literal inner false := by
          cases escaped <;> simp [Context.next, ne_of_isAlphanum hk0 (show Char.isAlphanum '"' = false by decide),
            ne_of_isAlphanum hk0 (show Char.isAlphanum '\\' = false by decide)]
        have hrest : Steady inner rest := Steady.of_isAlphanum fun x hx => hk x (List.mem_cons_of_mem _ hx)
        simp only [Context.through_cons, Context.read_cons, hnext]
        refine ⟨⟨rfl, by cases escaped <;> rfl, hrest.within.mono fun _ h => h.1⟩, inner, false, hrest.back⟩
    obtain ⟨hthrough, inner', escaped', hread⟩ := hc
    obtain ⟨hthrough', inner'', escaped'', hread'⟩ := ih inner' escaped'
    have hcons : encodeName (c :: name) = encodeChar c ++ encodeName name := rfl
    rw [hcons]
    refine ⟨hthrough.append ?_, inner'', escaped'', by rw [Context.read_append, hread, hread']⟩
    rw [hread]
    exact hthrough'

/-! ## What a written name holds -/

def isEscapeChar (c : Char) : Bool :=
  c.isAlphanum || c == '\\' || c == '"' || c == '\''

namespace Form

theorem write_singleton (form : Form) (c : Char) :
    form.write [c] = [c] ∨ ∃ rest, form.write [c] = '\\' :: rest ∧ ∀ x ∈ rest, isEscapeChar x = true := by
  have alphanum {x : Char} (hx : x.isAlphanum = true) : isEscapeChar x = true := by simp [isEscapeChar, hx]
  have encoded {u : List Char} (hu : Encoded c u) :
      u = [c] ∨ ∃ rest, u = '\\' :: rest ∧ ∀ x ∈ rest, isEscapeChar x = true := by
    cases hu with
    | plain _ _ => exact .inl rfl
    | pair hc => exact .inr ⟨_, rfl, by rcases hc with rfl | rfl <;> exact forall_mem_of_all (by decide)⟩
    | control k rest _ hk => exact .inr ⟨_, rfl, fun x hx => alphanum (hk x hx)⟩
  have string : encodeName [c] = encodeChar c := by simp [encodeName]
  have once : Encoded c (encodeName [c]) := string ▸ encoded_encodeChar c
  cases form with
  | string | bracket => exact encoded once
  | accessor => exact .inl rfl
  | escaped =>
    simp only [write, string]
    have h := encodedTwice c
    generalize encodeName (encodeChar c) = u at h
    cases h with
    | plain _ _ => exact .inl rfl
    | pair hc => exact .inr ⟨_, rfl, by rcases hc with rfl | rfl <;> exact forall_mem_of_all (by decide)⟩
    | control k rest hk =>
      refine .inr ⟨_, rfl, fun x hx => ?_⟩
      rcases List.mem_cons.mp hx with rfl | hx
      · decide
      · exact alphanum (hk x hx)
  | single =>
    have hs : escapeSingle [c] = escapeSingleChar c := by simp [escapeSingle]
    simp only [write, hs]
    have h := encodedSingle c
    generalize encodeName (escapeSingleChar c) = u at h
    cases h with
    | backslash _ => exact .inr ⟨_, rfl, forall_mem_of_all (by decide)⟩
    | quote _ => exact .inr ⟨_, rfl, forall_mem_of_all (by decide)⟩
    | other u _ _ he => exact encoded he

/-- What no escape holds stands in a written name only if it stands in the name. -/
theorem mem_of_mem_write {form : Form} {name : List Char} {x : Char} (hx : isEscapeChar x = false)
    (h : x ∈ form.write name) : x ∈ name := by
  induction name with
  | nil => simp at h
  | cons c name ih =>
    rw [write_cons] at h
    rcases List.mem_append.mp h with h | h
    · rcases form.write_singleton c with hc | ⟨rest, hc, hrest⟩
      · rw [hc, List.mem_singleton] at h
        exact h ▸ List.mem_cons_self
      · rw [hc] at h
        rcases List.mem_cons.mp h with rfl | h
        · cases hx
        · rw [hrest x h] at hx; cases hx
    · exact List.mem_cons_of_mem _ (ih h)

/-- Token characters that begin a written name begin the name. -/
theorem prefix_of_prefix_write {form : Form} {part name : List Char} (hp : ∀ c ∈ part, isTokenChar c = true)
    (h : part <+: form.write name) : part <+: name := by
  induction name generalizing part with
  | nil => simpa using h
  | cons c name ih =>
    cases part with
    | nil => exact List.nil_prefix
    | cons d part =>
      rw [write_cons] at h
      rcases form.write_singleton c with hc | ⟨rest, hc, _⟩
      · rw [hc, List.singleton_append, List.cons_prefix_cons] at h
        exact List.cons_prefix_cons.mpr ⟨h.1, ih (fun e he => hp e (List.mem_cons_of_mem _ he)) h.2⟩
      · rw [hc, List.cons_append, List.cons_prefix_cons] at h
        exact absurd h.1 (ne_of_isTokenChar (hp d List.mem_cons_self) (by decide))

theorem infix_of_infix_write {form : Form} {part name : List Char}
    (hp : ∀ c ∈ '_' :: part, isTokenChar c = true) (h : '_' :: part <:+: form.write name) :
    '_' :: part <:+: name := by
  induction name with
  | nil => simp at h
  | cons c name ih =>
    have behind (hn : '_' :: part <:+: form.write name) : '_' :: part <:+: c :: name :=
      (ih hn).trans (List.suffix_cons c name).isInfix
    rw [write_cons] at h
    rcases form.write_singleton c with hc | ⟨rest, hc, hrest⟩
    · rw [hc, List.singleton_append, List.infix_cons_iff] at h
      rcases h with h | h
      · have hw : '_' :: part <+: form.write (c :: name) := by rw [write_cons, hc]; exact h
        exact (prefix_of_prefix_write hp hw).isInfix
      · exact behind h
    · -- an occurrence starts with an underscore, which the escape does not hold
      have hnot : '_' ∉ form.write [c] := by
        rw [hc]
        intro hm
        rcases List.mem_cons.mp hm with h | h
        · cases h
        · exact absurd (hrest _ h) (by decide)
      rcases List.infix_append_iff.mp h with h | h | ⟨a, b, he, ha, hb⟩
      · exact absurd (h.mem List.mem_cons_self) hnot
      · exact behind h
      · cases a with
        | nil => rw [List.nil_append] at he; exact behind (he ▸ hb.isInfix)
        | cons d a =>
          obtain ⟨rfl, -⟩ := List.cons.inj he
          exact absurd (ha.mem List.mem_cons_self) hnot

/-- What starts with an underscore and is made of token characters occurs in a written name
    exactly when it occurs in the name. -/
theorem infix_write {form : Form} {part name : List Char} (hp : ∀ c ∈ '_' :: part, isTokenChar c = true) :
    '_' :: part <:+: form.write name ↔ '_' :: part <:+: name := by
  refine ⟨infix_of_infix_write hp, ?_⟩
  intro h
  obtain ⟨a, b, rfl⟩ := h
  refine ⟨form.write a, form.write b, ?_⟩
  rw [write_append, write_append, form.write_of_isTokenChar hp]

end Form

/-! ## Reading a name back -/

theorem encodeChar_ne_nil (c : Char) : encodeChar c ≠ [] := by
  have h := encoded_encodeChar c
  generalize encodeChar c = u at h
  cases h <;> exact List.cons_ne_nil _ _

theorem eq_of_encodeChar_prefix_of_lt {c d : Char} (hc : c.toNat < 32) (hd : d.toNat < 32)
    (h : encodeChar c <+: encodeChar d) : c = d := by
  have all : ∀ m < 32, ∀ n < 32, (encodeChar (.ofNat m)).isPrefixOf (encodeChar (.ofNat n)) = true →
      Char.ofNat m = Char.ofNat n := by decide +kernel
  have := all c.toNat hc d.toNat hd
  simp only [Char.ofNat_toNat] at this
  exact this (List.isPrefixOf_iff_prefix.mpr h)

theorem eq_of_encodeChar_isPrefix {c d : Char} (h : encodeChar c <+: encodeChar d) : c = d := by
  have hc := encoded_encodeChar c
  have hd := encoded_encodeChar d
  have both := @eq_of_encodeChar_prefix_of_lt c d
  generalize encodeChar c = u at hc h both
  generalize encodeChar d = v at hd h both
  have pairs {k : Char} (hk : k.isAlphanum = true) : ¬ (k = '"' ∨ k = '\\') := by
    rintro (rfl | rfl) <;> cases hk
  cases hc with
  | plain hq hb =>
    cases hd with
    | plain _ _ => exact (List.cons_prefix_cons.mp h).1
    | pair _ => exact absurd (List.cons_prefix_cons.mp h).1 hb
    | control => exact absurd (List.cons_prefix_cons.mp h).1 hb
  | pair hcc =>
    cases hd with
    | plain _ hb => exact absurd (List.cons_prefix_cons.mp h).1.symm hb
    | pair _ => exact (List.cons_prefix_cons.mp (List.cons_prefix_cons.mp h).2).1
    | control k _ _ hk =>
      have := (List.cons_prefix_cons.mp (List.cons_prefix_cons.mp h).2).1
      exact absurd (this ▸ hcc) (pairs (hk k List.mem_cons_self))
  | control k rest hlt hk =>
    cases hd with
    | plain _ hb => exact absurd (List.cons_prefix_cons.mp h).1.symm hb
    | pair hdd =>
      have := (List.cons_prefix_cons.mp (List.cons_prefix_cons.mp h).2).1
      exact absurd (this.symm ▸ hdd) (pairs (hk k List.mem_cons_self))
    | control _ _ hlt' _ => exact both hlt hlt' h

theorem encodeName_inj {a b : List Char} (h : encodeName a = encodeName b) : a = b :=
  flatMap_inj encodeChar_ne_nil (fun _ _ => eq_of_encodeChar_isPrefix) h

/-- A text without the backslash in front of each character that is escaped. -/
def unescape : List Char → List Char
  | [] => []
  | '\\' :: c :: rest => c :: unescape rest
  | c :: rest => c :: unescape rest

theorem unescape_escapeSingle (name : List Char) : unescape (escapeSingle name) = name := by
  induction name with
  | nil => rfl
  | cons c name ih =>
    have hcons : escapeSingle (c :: name) = escapeSingleChar c ++ escapeSingle name := rfl
    rw [hcons]
    unfold escapeSingleChar
    split
    · next h => simp [unescape, ih, h]
    · next hslash =>
      split
      · next h => simp [unescape, ih, h]
      · simp [unescape, ih, hslash]

theorem escapeSingle_inj {a b : List Char} (h : escapeSingle a = escapeSingle b) : a = b := by
  rw [← unescape_escapeSingle a, h, unescape_escapeSingle]

namespace Form

/-- A form writes different names differently. -/
theorem write_inj {form : Form} {a b : List Char} (h : form.write a = form.write b) : a = b := by
  cases form with
  | string | bracket => exact encodeName_inj h
  | escaped => exact encodeName_inj (encodeName_inj h)
  | single => exact escapeSingle_inj (encodeName_inj h)
  | accessor => exact h

theorem write_ne_nil {form : Form} {name : List Char} (h : name ≠ []) : form.write name ≠ [] :=
  fun hw => h (@write_inj form _ _ (hw.trans form.write_nil.symm))

end Form

/-! ## Lengths -/

theorem byteLength_le_encodeName (name : List Char) : byteLength name ≤ byteLength (encodeName name) := by
  induction name with
  | nil => simp
  | cons c name ih =>
    have hc : c.utf8Size ≤ byteLength (encodeChar c) := by
      have h := encoded_encodeChar c
      generalize encodeChar c = u at h
      cases h with
      | plain _ _ => simp
      | pair _ => simp
      | control k rest hlt _ =>
        have hsize : c.utf8Size = 1 := by
          have hval : c.val.toNat < 32 := hlt
          unfold Char.utf8Size
          rw [if_pos (by rw [UInt32.le_iff_toNat_le]; simp; omega)]
        have hk := k.utf8Size_pos
        simp only [byteLength_cons, hsize]
        omega
    have : encodeName (c :: name) = encodeChar c ++ encodeName name := rfl
    simp only [this, byteLength_cons, byteLength_append]
    omega

theorem byteLength_encodeName_le (name : List Char) :
    byteLength (encodeName name) ≤ byteLength (encodeName (escapeSingle name)) := by
  induction name with
  | nil => simp [escapeSingle]
  | cons c name ih =>
    have hc : byteLength (encodeName [c]) ≤ byteLength (encodeName (escapeSingleChar c)) := by
      unfold escapeSingleChar
      split
      · next h => subst h; decide
      · split
        · next h => subst h; decide
        · exact Nat.le_refl _
    have h1 : encodeName (c :: name) = encodeName [c] ++ encodeName name := encodeName_append [c] name
    have h2 : encodeName (escapeSingle (c :: name)) =
        encodeName (escapeSingleChar c) ++ encodeName (escapeSingle name) := by
      rw [← encodeName_append]; rfl
    simp only [h1, h2, byteLength_append]
    omega

end FieldRemap
