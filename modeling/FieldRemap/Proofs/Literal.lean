/-
  FieldRemap.Proofs.Literal — the strings and numbers of a document.

  The reader and the grammar agree on them. The reader gets behind a string exactly when what
  stands before the closing quote is the content of one (`SpelledText.exists_content`,
  `SpelledText.exists_read`), and it reads a number in the same way whatever stands behind it,
  unless the number could go on there (`Numeral.exists_front`).
-/

import FieldRemap.Proofs.Grammar
import FieldRemap.Proofs.Lists

namespace FieldRemap

/-! ## Escapes -/

theorem isSome_hexNumber? {digits : List Char} :
    (hexNumber? digits).isSome = true ↔ ∀ c ∈ digits, (hexValue? c).isSome = true := by
  have spelled : ∀ (digits : List Char) (start : Option Nat),
      (digits.foldl (fun n c => n.bind fun n => (hexValue? c).map (16 * n + ·)) start).isSome = true ↔
        start.isSome = true ∧ ∀ c ∈ digits, (hexValue? c).isSome = true := by
    intro digits
    induction digits with
    | nil => simp
    | cons c digits ih =>
      intro start
      rw [List.foldl_cons, ih, List.forall_mem_cons]
      cases start <;> cases hexValue? c <;> simp
  rw [hexNumber?, spelled]
  simp

/-- A hexadecimal digit takes one byte. -/
theorem utf8Size_of_hexValue? {c : Char} (h : (hexValue? c).isSome = true) : c.utf8Size = 1 := by
  have upTo {d : Char} (hd : d.val ≤ 127) (hc : c ≤ d) : c.utf8Size = 1 :=
    Char.utf8Size_eq_one_iff.mpr (UInt32.le_trans hc hd)
  unfold hexValue? at h
  split at h
  · next hdigit =>
    simp only [Char.isDigit, Bool.and_eq_true, decide_eq_true_eq] at hdigit
    exact @upTo '9' (by decide) hdigit.2
  · split at h
    · next hlower =>
      simp only [Bool.and_eq_true, decide_eq_true_eq] at hlower
      exact @upTo 'f' (by decide) hlower.2
    · split at h
      · next hupper =>
        simp only [Bool.and_eq_true, decide_eq_true_eq] at hupper
        exact @upTo 'F' (by decide) hupper.2
      · cases h

inductive Escape : List Char → Prop
  | simple {c : Char} : (Spelling.simpleEscape? c).isSome = true → Escape [c]
  | unit {a b c d : Char} : (∀ digit ∈ [a, b, c, d], (hexValue? digit).isSome = true) → Escape ['u', a, b, c, d]

namespace StringPlace

theorem read_cons {place : StringPlace} {c : Char} {text : List Char} :
    place.read (c :: text) = (place.next c).bind fun behind => behind.read text := rfl

theorem digits_ne_plain (more : Nat) : digits more ≠ plain :=
  StringPlace.noConfusion

/-- Inside an escape the text goes on. -/
theorem exists_of_read {place : StringPlace} {text : List Char} (hplace : place ≠ .plain)
    (h : place.read text = some .plain) :
    ∃ c rest behind, text = c :: rest ∧ place.next c = some behind ∧ behind.read rest = some .plain := by
  cases text with
  | nil => exact absurd (Option.some.inj h) hplace
  | cons c rest =>
    obtain ⟨behind, hnext, hrest⟩ := Option.bind_eq_some_iff.mp (read_cons.symm.trans h)
    exact ⟨c, rest, behind, rfl, hnext, hrest⟩

theorem next_digits_succ {more : Nat} {c : Char} {behind : StringPlace} :
    (digits (more + 1)).next c = some behind ↔ (hexValue? c).isSome = true ∧ digits more = behind := by
  simp [next]

theorem next_digits_zero {c : Char} {behind : StringPlace} :
    (digits 0).next c = some behind ↔ (hexValue? c).isSome = true ∧ plain = behind := by
  simp [next]

/-- Behind a backslash stands an escape, and what it stands in goes on. -/
theorem read_escape_eq {text : List Char} : escape.read text = some .plain ↔
    ∃ part rest, text = part ++ rest ∧ Escape part ∧ plain.read rest = some .plain := by
  constructor
  · intro h
    obtain ⟨c, text, behind, rfl, hnext, hrest⟩ := exists_of_read (by decide) h
    simp only [next] at hnext
    split at hnext
    · next hu =>
      obtain rfl := Option.some.inj hnext
      subst hu
      obtain ⟨a, _, _, rfl, hnext, hrest⟩ := exists_of_read (digits_ne_plain 3) hrest
      obtain ⟨ha, rfl⟩ := next_digits_succ.mp hnext
      obtain ⟨b, _, _, rfl, hnext, hrest⟩ := exists_of_read (digits_ne_plain 2) hrest
      obtain ⟨hb, rfl⟩ := next_digits_succ.mp hnext
      obtain ⟨c, _, _, rfl, hnext, hrest⟩ := exists_of_read (digits_ne_plain 1) hrest
      obtain ⟨hc, rfl⟩ := next_digits_succ.mp hnext
      obtain ⟨d, rest, _, rfl, hnext, hrest⟩ := exists_of_read (digits_ne_plain 0) hrest
      obtain ⟨hd, rfl⟩ := next_digits_zero.mp hnext
      exact ⟨['u', a, b, c, d], rest, rfl, .unit (by simp [ha, hb, hc, hd]), hrest⟩
    · split at hnext
      · next hsimple =>
        obtain rfl := Option.some.inj hnext
        exact ⟨[c], text, rfl, .simple hsimple, hrest⟩
      · cases hnext
  · intro h
    obtain ⟨part, rest, rfl, hpart, hrest⟩ := h
    cases hpart with
    | @simple c hsimple =>
      have hu : c ≠ 'u' := by
        rintro rfl
        cases hsimple
      simp [read_cons, next, hu, hsimple, hrest]
    | unit hdigits =>
      simp only [List.forall_mem_cons] at hdigits
      obtain ⟨ha, hb, hc, hd, -⟩ := hdigits
      simp [read_cons, next, ha, hb, hc, hd, hrest]

end StringPlace

namespace Spelling

variable {input rest : JsonInput} {part content : List Char}

theorem unit_eq_ok {n : Nat} (h : unit input = .ok n) :
    ∃ a b c d rest, input = some a :: some b :: some c :: some d :: rest ∧
      ∀ digit ∈ [a, b, c, d], (hexValue? digit).isSome = true := by
  unfold unit at h
  split at h
  · cases h
  · split at h
    · next a b c d rest _ =>
      split at h
      · next hnumber => exact ⟨a, b, c, d, rest, rfl, isSome_hexNumber?.mp (hnumber ▸ rfl)⟩
      · cases h
    · cases h

/-- Four digits are read as the number they spell. -/
theorem unit_eq {a b c d : Char} {n : Nat} (h : hexNumber? [a, b, c, d] = some n) :
    unit (some a :: some b :: some c :: some d :: rest) = .ok n := by
  have hdigits := isSome_hexNumber?.mp (show (hexNumber? [a, b, c, d]).isSome = true by rw [h]; rfl)
  simp only [List.forall_mem_cons] at hdigits
  obtain ⟨ha, hb, hc, hd, -⟩ := hdigits
  have hsize : JsonInput.byteLength ((some a :: some b :: some c :: some d :: rest).take 4) = 4 := by
    simp [JsonInput.byteLength, utf8Size_of_hexValue? ha, utf8Size_of_hexValue? hb, utf8Size_of_hexValue? hc,
      utf8Size_of_hexValue? hd]
  rw [unit, if_neg (by omega)]
  simp only [h]

theorem exists_unit {a b c d : Char} (h : ∀ digit ∈ [a, b, c, d], (hexValue? digit).isSome = true) :
    ∃ n, unit (some a :: some b :: some c :: some d :: rest) = .ok n := by
  obtain ⟨n, hn⟩ := Option.isSome_iff_exists.mp (isSome_hexNumber?.mpr h)
  exact ⟨n, unit_eq hn⟩

/-- An escape that is passed over is one of the grammar. -/
theorem exists_escape {length : Nat} (hall : none ∉ input) (h : escapeLength input = .ok length) :
    ∃ part, Escape part ∧ part.length = length ∧ input = part.map some ++ input.drop length := by
  cases input with
  | nil => cases h
  | cons e input =>
    cases e with
    | none => exact absurd List.mem_cons_self hall
    | some e =>
      simp only [escapeLength] at h
      split at h
      · next he =>
        subst he
        cases hunit : unit input with
        | error fault =>
          rw [hunit] at h
          cases h
        | ok n =>
          rw [hunit] at h
          obtain rfl : 5 = length := Except.ok.inj h
          obtain ⟨a, b, c, d, rest, rfl, hdigits⟩ := unit_eq_ok hunit
          exact ⟨_, .unit hdigits, rfl, rfl⟩
      · split at h
        · next hsimple =>
          obtain rfl : 1 = length := Except.ok.inj h
          exact ⟨_, .simple hsimple, rfl, rfl⟩
        · cases h

theorem escapeLength_eq (h : Escape part) : escapeLength (part.map some ++ rest) = .ok part.length := by
  cases h with
  | @simple c h =>
    have hu : c ≠ 'u' := by
      rintro rfl
      cases h
    simp [escapeLength, hu, h]
  | unit h =>
    obtain ⟨n, hn⟩ := @exists_unit rest _ _ _ _ h
    simp [escapeLength, hn, Except.map]

/-! ## Strings -/

theorem passFrom_eq (skipped : Nat) (input : JsonInput) :
    passFrom skipped input = passFrom 0 (input.drop skipped) := by
  induction input generalizing skipped with
  | nil => cases skipped <;> rfl
  | cons c input ih =>
    cases skipped with
    | zero => rfl
    | succ skipped => exact ih skipped

/-- A surrogate that is passed over is an escape of its own. -/
theorem passFrom_lowHalf {input : JsonInput} {low : Nat} (h : lowHalf input = .ok low) :
    passFrom 0 input = passFrom 0 (input.drop 6) := by
  unfold lowHalf at h
  split at h
  · cases h
  · cases h
  · next rest =>
    cases hunit : unit rest with
    | error fault =>
      rw [hunit] at h
      cases h
    | ok n =>
      have hlength : escapeLength (some 'u' :: rest) = .ok 5 := by simp [escapeLength, hunit, Except.map]
      calc passFrom 0 (some '\\' :: some 'u' :: rest)
          = passFrom 5 (some 'u' :: rest) := by simp [passFrom, hlength]
        _ = passFrom 0 (rest.drop 4) := passFrom_eq 5 _
  · cases h

/-- An escape that is read is passed over, in one or two. -/
theorem exists_escapeLength {input : JsonInput} {c : Char} {length : Nat} (h : escape input = .ok (c, length)) :
    ∃ passed, escapeLength input = .ok passed ∧ passFrom passed input = passFrom length input := by
  cases input with
  | nil => cases h
  | cons e input =>
    cases e with
    | none => cases h
    | some e =>
      simp only [escape] at h
      split at h
      · next he =>
        subst he
        cases hunit : unit input with
        | error fault =>
          rw [hunit] at h
          cases h
        | ok n =>
          rw [hunit, Except.bind] at h
          refine ⟨5, by simp [escapeLength, hunit, Except.map], ?_⟩
          split at h
          · cases h
          · split at h
            · cases hlow : lowHalf (input.drop 4) with
              | error fault =>
                rw [hlow] at h
                cases h
              | ok low =>
                rw [hlow] at h
                obtain ⟨_, rfl⟩ := Prod.mk.inj (Except.ok.inj h)
                calc passFrom 5 (some 'u' :: input)
                    = passFrom 0 (input.drop 4) := passFrom_eq 5 _
                  _ = passFrom 0 ((input.drop 4).drop 6) := passFrom_lowHalf hlow
                  _ = passFrom 11 (some 'u' :: input) := by rw [passFrom_eq 11, List.drop_drop]; rfl
            · obtain ⟨_, rfl⟩ := Prod.mk.inj (Except.ok.inj h)
              rfl
      · next he =>
        split at h
        · next hsimple =>
          obtain ⟨_, rfl⟩ := Prod.mk.inj (Except.ok.inj h)
          exact ⟨1, by simp [escapeLength, he, hsimple], rfl⟩
        · cases h

/-- A string that is read is passed over up to the same place. -/
theorem passFrom_of_readFrom {input rest : JsonInput} {skipped : Nat} {text : List (Option Char)}
    (h : readFrom skipped input = .ok (text, rest)) : passFrom skipped input = .ok rest := by
  induction input generalizing skipped text with
  | nil => cases h
  | cons c input ih =>
    -- what is read behind a character is passed over
    have behind {skipped : Nat} {c : Option Char}
        (h : (readFrom skipped input).map (fun x => (c :: x.1, x.2)) = .ok (text, rest)) :
        passFrom skipped input = .ok rest := by
      cases hread : readFrom skipped input with
      | error fault =>
        rw [hread] at h
        cases h
      | ok x =>
        rw [hread] at h
        obtain ⟨_, rfl⟩ := Prod.mk.inj (Except.ok.inj h)
        exact ih hread
    cases skipped with
    | succ skipped => exact ih h
    | zero =>
      cases c with
      | none => exact behind h
      | some c =>
        simp only [readFrom] at h
        simp only [passFrom]
        split at h
        · next hq =>
          obtain ⟨_, rfl⟩ := Prod.mk.inj (Except.ok.inj h)
          rw [if_pos hq]
        · next hq =>
          rw [if_neg hq]
          split at h
          · next hb =>
            rw [if_pos hb]
            split at h
            · cases h
            · next hescape =>
              obtain ⟨passed, hlength, heq⟩ := exists_escapeLength hescape
              simp only [hlength, heq]
              exact behind h
          · next hb =>
            rw [if_neg hb]
            split at h
            · cases h
            · next hc =>
              rw [if_neg hc]
              exact behind h

/-- What is passed over up to the closing quote is the content of a string. -/
theorem exists_content_of_passFrom (hall : none ∉ input) (h : passFrom 0 input = .ok rest) :
    ∃ content, isContent content = true ∧ input = content.map some ++ some '"' :: rest := by
  suffices ∃ content, StringPlace.plain.read content = some .plain ∧ input = content.map some ++ some '"' :: rest by
    obtain ⟨content, hread, heq⟩ := this
    exact ⟨content, beq_iff_eq.mpr hread, heq⟩
  induction hn : input.length using Nat.strong_induction_on generalizing input with
  | _ n ih =>
  cases input with
  | nil => cases h
  | cons c input =>
    obtain ⟨hc, hinput⟩ := List.ne_and_not_mem_of_not_mem_cons hall
    cases c with
    | none => exact absurd rfl hc
    | some c =>
      rw [List.length_cons] at hn
      simp only [passFrom] at h
      split at h
      · next hq =>
        obtain rfl := Except.ok.inj h
        exact ⟨[], rfl, by rw [hq]; rfl⟩
      · next hq =>
        split at h
        · next hb =>
          subst hb
          split at h
          · cases h
          · next length hlength =>
            obtain ⟨part, hpart, rfl, heq⟩ := exists_escape hinput hlength
            rw [passFrom_eq] at h
            have hlt : (input.drop part.length).length < n := by
              rw [List.length_drop]
              omega
            obtain ⟨content, hread, hcontent⟩ := ih _ hlt (fun hmem => hinput (List.mem_of_mem_drop hmem)) h rfl
            refine ⟨'\\' :: (part ++ content), ?_, by simp [← hcontent, ← heq]⟩
            rw [StringPlace.read_cons]
            exact StringPlace.read_escape_eq.mpr ⟨part, content, rfl, hpart, hread⟩
        · next hb =>
          split at h
          · cases h
          · next hlow =>
            obtain ⟨content, hread, rfl⟩ := ih _ (by omega) hinput h rfl
            exact ⟨c :: content, by simp [StringPlace.read_cons, StringPlace.next, hq, hb, hlow, hread], rfl⟩

theorem passFrom_of_isContent (h : isContent content = true) :
    passFrom 0 (content.map some ++ some '"' :: rest) = .ok rest := by
  replace h : StringPlace.plain.read content = some .plain := beq_iff_eq.mp h
  induction hn : content.length using Nat.strong_induction_on generalizing content with
  | _ n ih =>
  cases content with
  | nil => simp [passFrom]
  | cons c content =>
    rw [StringPlace.read_cons] at h
    obtain ⟨behind, hnext, hread⟩ := Option.bind_eq_some_iff.mp h
    rw [List.length_cons] at hn
    simp only [StringPlace.next] at hnext
    split at hnext
    · cases hnext
    · next hc =>
      simp only [Bool.or_eq_true, decide_eq_true_eq, not_or] at hc
      obtain ⟨hq, hlow⟩ := hc
      split at hnext
      · next hb =>
        obtain rfl := Option.some.inj hnext
        obtain ⟨part, others, rfl, hpart, hothers⟩ := StringPlace.read_escape_eq.mp hread
        have hlength := @escapeLength_eq (others.map some ++ some '"' :: rest) _ hpart
        have hlt : others.length < n := by
          rw [List.length_append] at hn
          omega
        simp only [List.map_cons, List.map_append, List.cons_append, List.append_assoc, passFrom, hb, hlength]
        rw [passFrom_eq, ← List.length_map (f := some), List.drop_left]
        simpa using ih _ hlt hothers rfl
      · next hb =>
        obtain rfl := Option.some.inj hnext
        simp only [List.map_cons, List.cons_append, passFrom, hq, hb, hlow, if_false]
        exact ih _ (by omega) hread rfl

end Spelling

namespace SpelledText

variable {input rest : JsonInput}

/-- The reader gets behind a string where it is passed over. -/
theorem passFrom_of_read {text : Except JsonFault String} (h : read input = .closed text rest) :
    Spelling.passFrom 0 input = .ok rest := by
  unfold read at h
  split at h
  · next hread =>
    split at h
    · obtain ⟨_, rfl⟩ := SpelledText.closed.inj h
      exact Spelling.passFrom_of_readFrom hread
    · obtain ⟨_, rfl⟩ := SpelledText.closed.inj h
      exact Spelling.passFrom_of_readFrom hread
  · split at h
    · next hpass =>
      obtain ⟨_, rfl⟩ := SpelledText.closed.inj h
      exact hpass
    · cases h

theorem exists_content {text : Except JsonFault String} (hall : none ∉ input) (h : read input = .closed text rest) :
    ∃ content, isContent content = true ∧ input = content.map some ++ some '"' :: rest :=
  Spelling.exists_content_of_passFrom hall (passFrom_of_read h)

theorem exists_read {content : List Char} (h : isContent content = true) :
    ∃ text, read (content.map some ++ some '"' :: rest) = .closed text rest := by
  have hpass := @Spelling.passFrom_of_isContent rest _ h
  unfold read
  split
  · next hread =>
    obtain rfl := Except.ok.inj ((Spelling.passFrom_of_readFrom hread).symm.trans hpass)
    split <;> exact ⟨_, rfl⟩
  · rw [hpass]
    exact ⟨_, rfl⟩

end SpelledText

/-! ## Numbers -/

namespace Numeral

def Ends (input : JsonInput) : Prop :=
  ∀ c rest, input = some c :: rest → c.isDigit = false ∧ c ≠ '.' ∧ c ≠ 'e' ∧ c ≠ 'E'

theorem ends_nil : Ends [] :=
  nofun

variable {input rest : JsonInput}

/-- There is no quote and no backslash in the text, and it is read in the same way before whatever ends a number. -/
structure Front {α : Type} (reader : JsonInput → Except JsonFault (α × JsonInput)) (value : α) (text : List Char) :
    Prop where
  plain : ∀ c ∈ text, c ≠ '"' ∧ c ≠ '\'' ∧ c ≠ '\\'
  read : ∀ rest, Ends rest → reader (text.map some ++ rest) = .ok (value, rest)

theorem ne_of_isDigit {c d : Char} (hc : c.isDigit = true) (hd : d.isDigit = false) : c ≠ d := by
  rintro rfl
  rw [hc] at hd
  cases hd

/-- What starts a number is no other character. -/
theorem ne_of_start {c d : Char} (hc : c = '-' ∨ c.isDigit = true) (hminus : d ≠ '-') (hd : d.isDigit = false) :
    c ≠ d :=
  hc.elim (fun h => h ▸ hminus.symm) fun h => ne_of_isDigit h hd

theorem not_quote_of_isDigit {c : Char} (h : c.isDigit = true) : c ≠ '"' ∧ c ≠ '\'' ∧ c ≠ '\\' :=
  ⟨ne_of_isDigit h rfl, ne_of_isDigit h rfl, ne_of_isDigit h rfl⟩

theorem exists_takeDigits (input : JsonInput) : ∃ digits rest, takeDigits input = (digits, rest) ∧
    input = digits.map some ++ rest ∧ ∀ c ∈ digits, c.isDigit = true := by
  induction input with
  | nil => exact ⟨[], [], rfl, rfl, nofun⟩
  | cons c input ih =>
    obtain ⟨digits, rest, htake, rfl, hdigits⟩ := ih
    by_cases hc : c.any Char.isDigit = true
    · obtain ⟨d, rfl, hd⟩ := (Option.any_eq_true _ _).mp hc
      refine ⟨d :: digits, rest, ?_, rfl, List.forall_mem_cons.mpr ⟨hd, hdigits⟩⟩
      obtain ⟨htaken, hrest⟩ := Prod.mk.inj htake
      rw [takeDigits, List.takeWhile_cons, List.dropWhile_cons, if_pos hc, if_pos hc, List.filterMap_cons, hrest,
        htaken]
      rfl
    · refine ⟨[], _, ?_, rfl, nofun⟩
      rw [takeDigits, List.takeWhile_cons, List.dropWhile_cons, if_neg hc, if_neg hc]
      rfl

theorem takeDigits_append {digits : List Char} (hd : ∀ c ∈ digits, c.isDigit = true)
    (hrest : ∀ c others, rest = some c :: others → c.isDigit = false) :
    takeDigits (digits.map some ++ rest) = (digits, rest) := by
  induction digits with
  | nil =>
    cases rest with
    | nil => rfl
    | cons c rest =>
      have hc : ¬ c.any Char.isDigit = true := by
        cases c with
        | none => exact Bool.false_ne_true
        | some c => simp [hrest c rest rfl]
      rw [takeDigits, List.map_nil, List.nil_append, List.takeWhile_cons, List.dropWhile_cons, if_neg hc, if_neg hc]
      rfl
  | cons c digits ih =>
    obtain ⟨hc, hdigits⟩ := List.forall_mem_cons.mp hd
    obtain ⟨htaken, hbehind⟩ := Prod.mk.inj (ih hdigits)
    have hc : (some c).any Char.isDigit = true := hc
    rw [takeDigits, List.map_cons, List.cons_append, List.takeWhile_cons, List.dropWhile_cons, if_pos hc, if_pos hc,
      List.filterMap_cons, hbehind, htaken]
    rfl

/-- A number without an exponent. -/
theorem front_nil : Front readExponent none [] := by
  refine ⟨nofun, fun rest hrest => ?_⟩
  cases rest with
  | nil => rfl
  | cons c rest =>
    cases c with
    | none => rfl
    | some c =>
      obtain ⟨-, -, he, hE⟩ := hrest c rest rfl
      simp [readExponent, he, hE]

/-- An exponent, with its sign and without. -/
theorem front_exponent {mark : Char} {digits : List Char} (hmark : mark = 'e' ∨ mark = 'E')
    (hd : ∀ c ∈ digits, c.isDigit = true) (hnil : digits ≠ []) :
    Front readExponent (some (true, digits)) (mark :: '-' :: digits) ∧
      Front readExponent (some (false, digits)) (mark :: '+' :: digits) ∧
      Front readExponent (some (false, digits)) (mark :: digits) := by
  have hmarks : (mark = 'e' || mark = 'E') = true := by simpa using hmark
  have hplain : ∀ c ∈ mark :: digits, c ≠ '"' ∧ c ≠ '\'' ∧ c ≠ '\\' := by
    refine List.forall_mem_cons.mpr ⟨?_, fun c hc => not_quote_of_isDigit (hd c hc)⟩
    rcases hmark with rfl | rfl <;> decide
  obtain ⟨hm, hdigits⟩ := List.forall_mem_cons.mp hplain
  have htake {rest : JsonInput} (hrest : Ends rest) : takeDigits (digits.map some ++ rest) = (digits, rest) :=
    takeDigits_append hd fun c others h => (hrest c others h).1
  have hempty : digits.isEmpty = false := by simpa using hnil
  refine ⟨⟨?_, fun rest hrest => ?_⟩, ⟨?_, fun rest hrest => ?_⟩, ⟨hplain, fun rest hrest => ?_⟩⟩
  · exact List.forall_mem_cons.mpr ⟨hm, List.forall_mem_cons.mpr ⟨by decide, hdigits⟩⟩
  · simp [readExponent, hmarks, htake hrest, hempty]
  · exact List.forall_mem_cons.mpr ⟨hm, List.forall_mem_cons.mpr ⟨by decide, hdigits⟩⟩
  · simp [readExponent, hmarks, htake hrest, hempty]
  · have htake := htake hrest
    obtain ⟨d, ds, rfl⟩ := List.exists_cons_of_ne_nil hnil
    have hminus : d ≠ '-' := ne_of_isDigit (hd d List.mem_cons_self) rfl
    have hplus : d ≠ '+' := ne_of_isDigit (hd d List.mem_cons_self) rfl
    simp only [List.map_cons, List.cons_append] at htake
    simp [readExponent, hmarks, hminus, hplus, htake]

theorem exists_front_readExponent {exponent : Option (Bool × List Char)}
    (h : readExponent input = .ok (exponent, rest)) :
    ∃ text, input = text.map some ++ rest ∧ Front readExponent exponent text ∧
      ∀ c ∈ text.head?, c = 'e' ∨ c = 'E' := by
  unfold readExponent at h
  split at h
  · next mark behind =>
    split at h
    · next hmarks =>
      have hmark : mark = 'e' ∨ mark = 'E' := by simpa using hmarks
      split at h
      next negative signed hsign =>
        obtain ⟨digits, others, htake, rfl, hd⟩ := exists_takeDigits signed
        rw [htake] at h
        simp only at h
        split at h
        · cases h
        · next hempty =>
          obtain ⟨rfl, rfl⟩ := Prod.mk.inj (Except.ok.inj h)
          have hnil : digits ≠ [] := by simpa using hempty
          obtain ⟨hminus, hplus, hnone⟩ := front_exponent hmark hd hnil
          split at hsign
          · obtain ⟨rfl, rfl⟩ := Prod.mk.inj hsign
            exact ⟨_, rfl, hminus, by simpa using hmark⟩
          · obtain ⟨rfl, rfl⟩ := Prod.mk.inj hsign
            exact ⟨_, rfl, hplus, by simpa using hmark⟩
          · obtain ⟨rfl, rfl⟩ := Prod.mk.inj hsign
            exact ⟨_, rfl, hnone, by simpa using hmark⟩
    · obtain ⟨rfl, rfl⟩ := Prod.mk.inj (Except.ok.inj h)
      exact ⟨[], rfl, front_nil, nofun⟩
  · obtain ⟨rfl, rfl⟩ := Prod.mk.inj (Except.ok.inj h)
    exact ⟨[], rfl, front_nil, nofun⟩

def readBehind (negative : Bool) (whole : List Char) (input : JsonInput) : Except JsonFault (Numeral × JsonInput) :=
  match input with
  | some '.' :: rest =>
    let (fraction, rest) := takeDigits rest
    if fraction.isEmpty then .error (digitFault rest)
    else
      (readExponent rest).map fun (exponent, rest) =>
        ({ negative, whole, fraction, exponent, isWhole := false }, rest)
  | rest =>
    (readExponent rest).map fun (exponent, rest) =>
      ({ negative, whole, fraction := [], exponent, isWhole := exponent.isNone }, rest)

def readWhole (negative : Bool) (input : JsonInput) : Except JsonFault (Numeral × JsonInput) :=
  let (whole, rest) := takeDigits input
  match whole with
  | [] => .error (digitFault rest)
  | '0' :: _ :: _ => .error .malformed
  | _ => readBehind negative whole rest

theorem read_minus (input : JsonInput) : read (some '-' :: input) = readWhole true input := rfl

theorem read_of_ne_minus (h : ∀ rest, input ≠ some '-' :: rest) : read input = readWhole false input := by
  unfold read
  split
  next negative digits hsign =>
    split at hsign
    · exact absurd rfl (h _)
    · obtain ⟨rfl, rfl⟩ := Prod.mk.inj hsign
      rfl

theorem exists_map_eq_ok {α β : Type} {f : α → β} {result : Except JsonFault α} {b : β} (h : result.map f = .ok b) :
    ∃ a, result = .ok a ∧ f a = b := by
  cases result with
  | error fault => cases h
  | ok a => exact ⟨a, rfl, Except.ok.inj h⟩

/-- What a number goes on with starts with no digit, nor does what ends it. -/
theorem not_isDigit_of_head {text : List Char} {marks : List Char} (hmarks : ∀ c ∈ marks, c.isDigit = false)
    (hhead : ∀ c ∈ text.head?, c ∈ marks) (hrest : Ends rest) :
    ∀ c others, text.map some ++ rest = some c :: others → c.isDigit = false := by
  intro c others h
  cases text with
  | nil => exact (hrest c others h).1
  | cons d text =>
    obtain ⟨hd, _⟩ := List.cons.inj h
    obtain rfl := Option.some.inj hd
    exact hmarks d (hhead d rfl)

theorem exists_front_readBehind {negative : Bool} {whole : List Char} {numeral : Numeral}
    (h : readBehind negative whole input = .ok (numeral, rest)) :
    ∃ text, input = text.map some ++ rest ∧ Front (readBehind negative whole) numeral text ∧
      ∀ c ∈ text.head?, c ∈ ['.', 'e', 'E'] := by
  unfold readBehind at h
  split at h
  · next behind =>
    obtain ⟨digits, others, htake, rfl, hd⟩ := exists_takeDigits behind
    rw [htake] at h
    simp only at h
    split at h
    · cases h
    · next hempty =>
      obtain ⟨⟨exponent, _⟩, hread, heq⟩ := exists_map_eq_ok h
      obtain ⟨rfl, rfl⟩ := Prod.mk.inj heq
      obtain ⟨text, rfl, hfront, hhead⟩ := exists_front_readExponent hread
      refine ⟨'.' :: (digits ++ text), by simp, ⟨?_, fun rest hrest => ?_⟩, by simp⟩
      · refine List.forall_mem_cons.mpr ⟨by decide, fun c hc => ?_⟩
        exact (List.mem_append.mp hc).elim (fun hc => not_quote_of_isDigit (hd c hc)) (hfront.plain c)
      · have hmarks : ∀ c ∈ text.head?, c ∈ ['e', 'E'] := by simpa using hhead
        have htake : takeDigits (digits.map some ++ (text.map some ++ rest)) = (digits, text.map some ++ rest) :=
          takeDigits_append hd (not_isDigit_of_head (forall_mem_of_all (by decide)) hmarks hrest)
        simp [readBehind, htake, hempty, hfront.read rest hrest, Except.map]
  · next hpoint =>
    obtain ⟨⟨exponent, _⟩, hread, heq⟩ := exists_map_eq_ok h
    obtain ⟨rfl, rfl⟩ := Prod.mk.inj heq
    obtain ⟨text, rfl, hfront, hhead⟩ := exists_front_readExponent hread
    refine ⟨text, rfl, ⟨hfront.plain, fun rest hrest => ?_⟩,
      fun c hc => List.mem_cons_of_mem _ (by simpa using hhead c hc)⟩
    unfold readBehind
    split
    · next others heq =>
      cases text with
      | nil => exact absurd rfl (hrest _ _ heq).2.1
      | cons c text =>
        obtain ⟨hc, _⟩ := List.cons.inj heq
        obtain rfl := Option.some.inj hc
        rcases hhead _ rfl with h | h <;> cases h
    · rw [hfront.read rest hrest]
      rfl

theorem exists_front_readWhole {negative : Bool} {numeral : Numeral}
    (h : readWhole negative input = .ok (numeral, rest)) :
    ∃ text, input = text.map some ++ rest ∧ Front (readWhole negative) numeral text ∧
      ∃ c others, text = c :: others ∧ c.isDigit = true := by
  unfold readWhole at h
  obtain ⟨digits, others, htake, rfl, hd⟩ := exists_takeDigits input
  rw [htake] at h
  simp only at h
  split at h
  · cases h
  · cases h
  · next hnil hzero =>
    obtain ⟨text, rfl, hfront, hhead⟩ := exists_front_readBehind h
    obtain ⟨d, ds, rfl⟩ := List.exists_cons_of_ne_nil hnil
    refine ⟨d :: ds ++ text, by simp, ⟨fun c hc => ?_, fun rest hrest => ?_⟩,
      d, ds ++ text, rfl, hd d List.mem_cons_self⟩
    · exact (List.mem_append.mp hc).elim (fun hc => not_quote_of_isDigit (hd c hc)) (hfront.plain c)
    · have htake := takeDigits_append hd (not_isDigit_of_head (forall_mem_of_all (by decide)) hhead hrest)
      unfold readWhole
      rw [List.map_append, List.append_assoc, htake]
      simp only
      exact hfront.read rest hrest

/-- A number that is read has no quote and no backslash in it, starts with a minus or a digit, and is read in the same way before
    whatever ends it. -/
theorem exists_front {numeral : Numeral} (h : read input = .ok (numeral, rest)) :
    ∃ text, input = text.map some ++ rest ∧ Front read numeral text ∧
      ∃ c others, text = c :: others ∧ (c = '-' ∨ c.isDigit = true) := by
  by_cases hminus : ∃ behind, input = some '-' :: behind
  · obtain ⟨behind, rfl⟩ := hminus
    rw [read_minus] at h
    obtain ⟨text, rfl, hfront, _⟩ := exists_front_readWhole h
    exact ⟨'-' :: text, rfl, ⟨List.forall_mem_cons.mpr ⟨by decide, hfront.plain⟩, hfront.read⟩,
      '-', text, rfl, .inl rfl⟩
  · rw [read_of_ne_minus fun behind heq => hminus ⟨behind, heq⟩] at h
    obtain ⟨text, rfl, hfront, c, others, rfl, hc⟩ := exists_front_readWhole h
    refine ⟨c :: others, rfl, ⟨hfront.plain, fun rest hrest => ?_⟩, c, others, rfl, .inr hc⟩
    rw [read_of_ne_minus, hfront.read rest hrest]
    intro behind heq
    obtain rfl := Option.some.inj (List.cons.inj heq).1
    cases hc

end Numeral

theorem JsonToken.exists_front {text : List Char} (h : (JsonToken.number text).isFormed = true) :
    ∃ numeral, Numeral.Front Numeral.read numeral text ∧
      ∃ c others, text = c :: others ∧ (c = '-' ∨ c.isDigit = true) := by
  simp only [isFormed] at h
  split at h
  · next numeral hread =>
    obtain ⟨front, hfront, hreads, hstart⟩ := Numeral.exists_front hread
    rw [List.append_nil] at hfront
    obtain rfl := List.map_injective_iff.mpr (fun _ _ => Option.some.inj) hfront
    exact ⟨numeral, hreads, hstart⟩
  · cases h

end FieldRemap
