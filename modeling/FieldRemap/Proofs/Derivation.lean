/-
  FieldRemap.Proofs.Derivation — what is read without a fault is derived.

  Where the reader gets past something in a text, the grammar derives it: past blanks, past a
  word, a number or a string, and so, by induction along the reader's calls, past a value
  (`outcome_readValue`). So a text that is read to its end without a fault is a document
  (`exists_isDocument`).
-/

import FieldRemap.Proofs.Literal
import Mathlib.Logic.Relation

namespace FieldRemap

/-- The input, if it is a text, goes on to the rest past pieces whose tokens are related so to the tokens behind. -/
def Spells (shape : List JsonToken → List JsonToken → Prop) (input rest : JsonInput) : Prop :=
  none ∉ input → ∃ pieces : List JsonPiece, input = (JsonPiece.write pieces).map some ++ rest ∧
    (∀ piece ∈ pieces, piece.isFormed = true ∧ piece.comment? = none) ∧
      ∀ tokens, shape (pieces.filterMap (·.token?) ++ tokens) tokens

namespace Spells

variable {shape shape' : List JsonToken → List JsonToken → Prop} {input inter rest : JsonInput}

theorem refl : Spells Eq input input :=
  fun _ => ⟨[], rfl, nofun, fun _ => rfl⟩

theorem comp (h : Spells shape input inter) (h' : Spells shape' inter rest) :
    Spells (Relation.Comp shape shape') input rest := by
  intro hall
  obtain ⟨pieces, rfl, hpieces, hshape⟩ := h hall
  obtain ⟨pieces', rfl, hpieces', hshape'⟩ := h' fun hmem => hall (List.mem_append_right _ hmem)
  refine ⟨pieces ++ pieces', by simp [JsonPiece.write], fun piece hpiece => ?_, fun tokens => ?_⟩
  · exact (List.mem_append.mp hpiece).elim (hpieces piece) (hpieces' piece)
  · rw [List.filterMap_append, List.append_assoc]
    exact ⟨_, hshape _, hshape' tokens⟩

theorem mono (h : Spells shape input rest) (hmono : ∀ a b, shape a b → shape' a b) : Spells shape' input rest := by
  intro hall
  obtain ⟨pieces, heq, hpieces, hshape⟩ := h hall
  exact ⟨pieces, heq, hpieces, fun tokens => hmono _ _ (hshape tokens)⟩

theorem behind (h : Spells Eq input inter) (h' : Spells shape inter rest) : Spells shape input rest :=
  (h.comp h').mono fun _ _ ⟨_, heq, hshape⟩ => heq ▸ hshape

theorem ahead (h : Spells shape input inter) (h' : Spells Eq inter rest) : Spells shape input rest :=
  (h.comp h').mono fun _ _ ⟨_, hshape, heq⟩ => heq ▸ hshape

theorem token {t : JsonToken} (h : t.isFormed = true) :
    Spells (fun a b => a = t :: b) (t.text.map some ++ rest) rest := by
  refine fun _ => ⟨[.token t], by simp [JsonPiece.write, JsonPiece.text], fun piece hpiece => ?_, fun _ => rfl⟩
  obtain rfl := List.mem_singleton.mp hpiece
  exact ⟨h, rfl⟩

theorem mark {c : Char} (h : (JsonToken.mark c).isFormed = true) :
    Spells (fun a b => a = .mark c :: b) (some c :: rest) rest :=
  token h

end Spells

namespace Document

variable {input rest : JsonInput}

theorem spells_dropBlanks : Spells Eq input (dropBlanks input) := by
  induction input with
  | nil => exact .refl
  | cons c input ih =>
    rw [dropBlanks, List.dropWhile_cons]
    split
    · next hblank =>
      intro hall
      cases c with
      | none => exact absurd List.mem_cons_self hall
      | some c =>
        obtain ⟨pieces, heq, hpieces, hshape⟩ := ih fun hmem => hall (List.mem_cons_of_mem _ hmem)
        exact ⟨.blank c :: pieces, congrArg (some c :: ·) heq,
          List.forall_mem_cons.mpr ⟨⟨hblank, rfl⟩, hpieces⟩, hshape⟩
    · exact .refl

theorem readWord_eq {word : List Char} (h : readWord word input = .ok rest) : input = word.map some ++ rest := by
  induction word generalizing input with
  | nil => exact Except.ok.inj h
  | cons letter word ih =>
    cases input with
    | nil => cases h
    | cons c input =>
      rw [readWord] at h
      split at h
      · next hc => rw [hc, ih h, List.map_cons, List.cons_append]
      · cases h

theorem spells_string {text : Except JsonFault String} (h : SpelledText.read input = .closed text rest) :
    Spells (fun a b => ∃ content, a = .string content :: b) (some '"' :: input) rest := by
  intro hall
  obtain ⟨content, hcontent, rfl⟩ := SpelledText.exists_content (fun hmem => hall (List.mem_cons_of_mem _ hmem)) h
  have hstring : Spells (fun a b => ∃ content, a = .string content :: b)
      ((JsonToken.string content).text.map some ++ rest) rest :=
    (@Spells.token rest (.string content) hcontent).mono fun _ _ heq => ⟨content, heq⟩
  rw [JsonToken.text, List.map_append, List.append_assoc] at hstring
  exact hstring hall

/-- The key of a member and the colon behind it. -/
theorem spells_key {text : Except JsonFault String} {inter : JsonInput}
    (h : SpelledText.read input = .closed text inter)
    (hcolon : dropBlanks inter = some ':' :: rest) :
    Spells (fun a b => ∃ key, a = .string key :: .mark ':' :: b) (some '"' :: input) rest := by
  have hbehind := (spells_string h).ahead spells_dropBlanks
  rw [hcolon] at hbehind
  refine (hbehind.comp (.mark rfl)).mono fun a b hab => ?_
  obtain ⟨_, ⟨key, rfl⟩, rfl⟩ := hab
  exact ⟨key, rfl⟩

theorem spells_number {numeral : Numeral} (h : Numeral.read input = .ok (numeral, rest)) :
    Spells (Derives .value) input rest := by
  obtain ⟨text, rfl, hfront, _⟩ := Numeral.exists_front h
  have hformed : (JsonToken.number text).isFormed = true := by
    have hread := hfront.read [] Numeral.ends_nil
    rw [List.append_nil] at hread
    rw [JsonToken.isFormed, hread]
  exact (Spells.token hformed).mono fun _ _ heq => heq ▸ .number

/-! ## Values -/

/-- Reading gets past such tokens, or it stops at a fault. -/
inductive Outcome (shape : List JsonToken → List JsonToken → Prop) (fault : Option JsonFault) (input : JsonInput) :
    Option JsonInput → Prop
  | reached {rest : JsonInput} : Spells shape input rest → Outcome shape fault input (some rest)
  | stopped : fault.isSome = true → Outcome shape fault input none

namespace Outcome

variable {shape shape' shape'' : List JsonToken → List JsonToken → Prop} {fault fault' : Option JsonFault}
  {inter : JsonInput} {out : Option JsonInput}

theorem after (h : Spells shape input inter) (h' : Outcome shape' fault inter out)
    (hshape : ∀ a b c, shape a b → shape' b c → shape'' a c) : Outcome shape'' fault input out := by
  cases h' with
  | reached hrest => exact .reached ((h.comp hrest).mono fun a c ⟨b, hab, hbc⟩ => hshape a b c hab hbc)
  | stopped hfault => exact .stopped hfault

theorem behind (h : Spells Eq input inter) (h' : Outcome shape fault inter out) : Outcome shape fault input out :=
  after h h' fun _ _ _ heq hshape => heq ▸ hshape

theorem mono (hmono : fault.isSome = true → fault'.isSome = true) (h : Outcome shape fault input out) :
    Outcome shape fault' input out := by
  cases h with
  | reached hrest => exact .reached hrest
  | stopped hfault => exact .stopped (hmono hfault)

end Outcome

theorem outcome_word {value : Draft} {c : Char} {letters : String}
    (h : (JsonToken.word (c :: letters.toList)).isFormed = true) :
    Outcome (Derives .value) (word value letters input).1.passedFault? (some c :: input)
      (word value letters input).2 := by
  unfold word
  split
  · next hword =>
    rw [readWord_eq hword]
    exact .reached ((Spells.token h).mono fun _ _ heq => heq ▸ .word)
  · exact .stopped rfl

theorem outcome_number : Outcome (Derives .value) (number input).1.passedFault? input (number input).2 := by
  unfold number
  split
  · exact .stopped rfl
  · next hread => split <;> exact .reached (spells_number hread)

theorem outcome_string :
    Outcome (Derives .value) (string input).1.passedFault? (some '"' :: input) (string input).2 := by
  have derives (a b : List JsonToken) (h : ∃ content, a = .string content :: b) : Derives .value a b := by
    obtain ⟨content, rfl⟩ := h
    exact .string
  unfold string
  split
  · next hread => exact .reached ((spells_string hread).mono derives)
  · next hread => exact .reached ((spells_string hread).mono derives)
  · exact .stopped rfl

@[simp] theorem passedFault?_nested (room : Nat) (value : Draft) :
    (nested room value).passedFault? = value.passedFault? := by
  unfold nested
  split
  · rw [Draft.passedFault?]
  · rfl

theorem isSome_passedItemsFault?_cons {unclosed : Option JsonFault} {item : Draft} {items : List Draft} :
    (Draft.passedItemsFault? unclosed (item :: items)).isSome = true ↔
      item.passedFault?.isSome = true ∨ (Draft.passedItemsFault? unclosed items).isSome = true := by
  rw [Draft.passedItemsFault?]
  cases item.passedFault? <;> simp

theorem isSome_passedMembersFault?_cons {unclosed : Option JsonFault} {key : Except JsonFault String} {value : Draft}
    {members : List (Option (Except JsonFault String) × Draft)} :
    (Draft.passedMembersFault? unclosed ((some key, value) :: members)).isSome = true ↔
      value.passedFault?.isSome = true ∨ (Draft.passedMembersFault? unclosed members).isSome = true := by
  rw [Draft.passedMembersFault?]
  cases value.passedFault? <;> simp

/-- What stands between the marks of an array or object up to the last one; behind another part it starts with a
    comma. -/
def Closes (part : JsonPart) (close : Char) (isFirst : Bool) (tokens rest : List JsonToken) : Prop :=
  tokens = .mark close :: rest ∨
    ∃ others, Derives part others (.mark close :: rest) ∧ tokens = if isFirst then others else .mark ',' :: others

theorem derives_items {a b c : List JsonToken} (h : Derives .value a b) (h' : Closes .items ']' false b c) :
    Derives .items a (.mark ']' :: c) := by
  rcases h' with rfl | ⟨others, hothers, rfl⟩
  · exact .lastItem h
  · exact .item h hothers

theorem derives_members {key : List Char} {a b c : List JsonToken} (h : Derives .value a b)
    (h' : Closes .members '}' false b c) : Derives .members (.string key :: .mark ':' :: a) (.mark '}' :: c) := by
  rcases h' with rfl | ⟨others, hothers, rfl⟩
  · exact .lastMember h
  · exact .member h hothers

/-- Before the first item or member nothing is left out, before any other a comma. -/
theorem spells_separated {isFirst : Bool} {c : Option Char} (h : (isFirst || c = some ',') = true) :
    Spells (fun a b => a = if isFirst then b else .mark ',' :: b) (c :: rest)
      (if isFirst = true then c :: rest else rest) := by
  cases isFirst with
  | true => exact .refl
  | false =>
    obtain rfl : c = some ',' := by simpa using h
    exact .mark rfl

mutual

theorem outcome_readValue (fuel room : Nat) (input : JsonInput) :
    Outcome (Derives .value) (readValue fuel room input).1.passedFault? input (readValue fuel room input).2 := by
  cases fuel with
  | zero => exact .stopped rfl
  | succ fuel =>
    apply Outcome.behind spells_dropBlanks
    rw [readValue]
    split
    · exact .stopped rfl
    · exact .stopped rfl
    · next c rest hdrop =>
      rw [hdrop]
      split
      · next hc =>
        subst hc
        exact outcome_string
      · split
        · next hc =>
          subst hc
          simp only [passedFault?_nested, Draft.passedFault?]
          refine .after (.mark rfl) (outcome_readItems fuel (room - 1) true rest) fun a b c ha hb => ?_
          subst ha
          rcases hb with rfl | ⟨others, hothers, rfl⟩
          · exact .emptyArray
          · exact .array hothers
        · split
          · next hc =>
            subst hc
            simp only [passedFault?_nested, Draft.passedFault?]
            refine .after (.mark rfl) (outcome_readMembers fuel (room - 1) true rest) fun a b c ha hb => ?_
            subst ha
            rcases hb with rfl | ⟨others, hothers, rfl⟩
            · exact .emptyObject
            · exact .object hothers
          · split
            · next hc =>
              subst hc
              exact outcome_word rfl
            · split
              · next hc =>
                subst hc
                exact outcome_word rfl
              · split
                · next hc =>
                  subst hc
                  exact outcome_word rfl
                · split
                  · exact outcome_number
                  · exact .stopped rfl

theorem outcome_readItems (fuel room : Nat) (isFirst : Bool) (input : JsonInput) :
    Outcome (Closes .items ']' isFirst)
      (Draft.passedItemsFault? (readItems fuel room isFirst input).2.1 (readItems fuel room isFirst input).1)
      input (readItems fuel room isFirst input).2.2 := by
  cases fuel with
  | zero => exact .stopped rfl
  | succ fuel =>
    apply Outcome.behind spells_dropBlanks
    rw [readItems]
    split
    · exact .stopped rfl
    · next c rest hdrop =>
      rw [hdrop]
      split
      · next hc =>
        subst hc
        exact .reached ((Spells.mark rfl).mono fun _ _ => .inl)
      · split
        · next hc =>
          have hitem := outcome_readValue fuel room (if isFirst = true then c :: rest else rest)
          split
          · next item hread =>
            rw [hread] at hitem
            cases hitem with
            | stopped hfault => exact .stopped (isSome_passedItemsFault?_cons.mpr (.inl hfault))
          · next item behind hread =>
            rw [hread] at hitem
            cases hitem with
            | reached hvalue =>
              have hitems := outcome_readItems fuel room false behind
              refine .mono (fun h => isSome_passedItemsFault?_cons.mpr (.inr h))
                (.after ((spells_separated hc).comp hvalue) hitems ?_)
              intro a b c hab hbc
              obtain ⟨inner, rfl, hinner⟩ := hab
              exact .inr ⟨inner, derives_items hinner hbc, rfl⟩
        · exact .stopped rfl

theorem outcome_readMembers (fuel room : Nat) (isFirst : Bool) (input : JsonInput) :
    Outcome (Closes .members '}' isFirst)
      (Draft.passedMembersFault? (readMembers fuel room isFirst input).2.1
        (readMembers fuel room isFirst input).1) input (readMembers fuel room isFirst input).2.2 := by
  cases fuel with
  | zero => exact .stopped rfl
  | succ fuel =>
    apply Outcome.behind spells_dropBlanks
    rw [readMembers]
    split
    · exact .stopped rfl
    · next c rest hdrop =>
      rw [hdrop]
      split
      · next hc =>
        subst hc
        exact .reached ((Spells.mark rfl).mono fun _ _ => .inl)
      · split
        · next hc =>
          have hseparated := (@spells_separated rest isFirst c hc).ahead spells_dropBlanks
          simp only
          split
          · next inside hkey =>
            rw [hkey] at hseparated
            split
            · exact .stopped rfl
            · next key behind hread =>
              split
              · next colon hcolon =>
                have hvalue := outcome_readValue fuel room colon
                split
                · next value hread =>
                  rw [hread] at hvalue
                  cases hvalue with
                  | stopped hfault => exact .stopped (isSome_passedMembersFault?_cons.mpr (.inl hfault))
                · next value behind hreadValue =>
                  rw [hreadValue] at hvalue
                  cases hvalue with
                  | reached hvalue =>
                    have hmembers := outcome_readMembers fuel room false behind
                    refine .mono (fun h => isSome_passedMembersFault?_cons.mpr (.inr h))
                      (.after (hseparated.comp ((spells_key hread hcolon).comp hvalue)) hmembers ?_)
                    intro a b c hab hbc
                    obtain ⟨_, rfl, _, ⟨key, rfl⟩, hinner⟩ := hab
                    exact .inr ⟨_, derives_members hinner hbc, rfl⟩
              · exact .stopped rfl
              · exact .stopped rfl
          · exact .stopped rfl
        · exact .stopped rfl

end

/-- The text is read to its end as a document, without a fault when it is passed over. -/
structure IsRead (text : String) : Prop where
  sound : (ofText text).value.passedFault? = none
  whole : (ofText text).isFollowed = false

/-- A text that is read to its end without a fault is a document. -/
theorem exists_isDocument {text : String} (hread : IsRead text) :
    ∃ pieces, IsDocument pieces ∧ text.toList = JsonPiece.write pieces := by
  obtain ⟨h, hend⟩ := hread
  unfold ofText ofInput at h hend
  have houtcome := outcome_readValue (2 * (text.toList.map some).length + 2) maxDepth (text.toList.map some)
  split at h
  · next hread =>
    rw [hread] at houtcome
    cases houtcome with
    | stopped hfault =>
      rw [h] at hfault
      cases hfault
  · next value rest hread =>
    rw [hread] at houtcome hend
    have hrest : dropBlanks rest = [] := by simpa using hend
    cases houtcome with
    | reached hvalue =>
      have hvalue := hvalue.ahead spells_dropBlanks
      obtain ⟨pieces, heq, hpieces, hderives⟩ := hvalue (by simp)
      rw [hrest, List.append_nil] at heq
      have hderives := hderives []
      rw [List.append_nil] at hderives
      exact ⟨pieces, ⟨fun p hp => (hpieces p hp).1, fun p hp => (hpieces p hp).2, hderives⟩,
        List.map_injective_iff.mpr (fun _ _ => Option.some.inj) heq⟩

end Document

end FieldRemap
