/-
  FieldRemap.Proofs.Legibility — written names can be read back.

  A name in a JSON string is read as the document that the string makes; one in an expression
  string is read after that, where a backslash stands for the character behind it. At the level
  where a form is read, no delimiter in a written name closes it, and no escape is left open
  behind it (`Unclosed`). So a name has its own writing in each form, which no other name shares
  (`legible_names`).
-/

import FieldRemap.Json.Record
import FieldRemap.Proofs.Printing
import FieldRemap.Proofs.Whole

namespace FieldRemap

/-! ## Reading -/

/-- What a JSON string spells, given by what stands between its quotes. -/
def spelled? (content : List Char) : Option (List Char) :=
  match (Document.ofText (String.ofList ('"' :: content ++ ['"']))).decode Draft.decodeText with
  | .ok text => some text.toList
  | .error _ => none

/-- Each delimiter in a text is escaped, and so is each backslash but those that escape: the first delimiter that is
    not stands behind the text. -/
inductive Unclosed (delimiter : Char) : List Char → Prop
  | nil : Unclosed delimiter []
  | plain (c : Char) (rest : List Char) : c ≠ delimiter → c ≠ '\\' → Unclosed delimiter rest →
      Unclosed delimiter (c :: rest)
  | escape (c : Char) (rest : List Char) : Unclosed delimiter rest → Unclosed delimiter ('\\' :: c :: rest)

/-- A name can be read back from each of its writings, and none of them closes the form it is written in. -/
structure Legible (name : List Char) : Prop where
  string : spelled? (Form.string.write name) = some name ∧ Unclosed '"' (Form.string.write name)
  escaped : ∃ seen, spelled? (Form.escaped.write name) = some seen ∧ spelled? seen = some name ∧ Unclosed '"' seen
  single : ∃ seen, spelled? (Form.single.write name) = some seen ∧ unescape seen = name ∧ Unclosed '\'' seen
  /-- A quoted key has its quotes with it. -/
  key : ∃ seen, spelled? (quotedKey name) = some ('\'' :: seen ++ ['\'']) ∧ unescape seen = name ∧ Unclosed '\'' seen
  bracket : isBareKey name = true → spelled? (Form.bracket.write name) = some name ∧ Unclosed ']' name
  /-- The quote map takes a quoted name for the content of a string where its form fits: a JSON string outside every
      literal, an expression string in the code of one. -/
  content (form : Form) (context : Context) : form ≠ .bracket → form ≠ .accessor → form.fits context = true →
    IsStringContent context form.opener (form.write name) form.closer

/-! ## JSON strings -/

theorem spelled?_encodeName (name : List Char) : spelled? (encodeName name) = some name := by
  have hread : SpelledText.read ((encodeName name ++ ['"']).map some) = .closed (.ok (String.ofList name)) [] := by
    have h := SpelledText.read_encodeName (String.ofList name) []
    rw [String.toList_ofList] at h
    rw [List.map_append]
    exact h
  have hdocument : Document.ofText (String.ofList ('"' :: encodeName name ++ ['"'])) =
      ⟨.text (String.ofList name), false⟩ := by
    rw [Document.ofText, String.toList_ofList, List.cons_append, List.map_cons, Document.ofInput, Document.readValue,
      Document.dropBlanks_of_not (by decide)]
    simp only [if_true, Document.string, hread]
    rfl
  rw [spelled?, hdocument]
  simp [Document.decode, Draft.decodeText]

namespace Unclosed

variable {delimiter : Char} {a b : List Char}

theorem append (ha : Unclosed delimiter a) (hb : Unclosed delimiter b) : Unclosed delimiter (a ++ b) := by
  induction ha with
  | nil => exact hb
  | plain c rest hc hslash _ ih => exact plain c _ hc hslash ih
  | escape c rest _ ih => exact escape c _ ih

theorem flatMap {f : Char → List Char} (h : ∀ c, Unclosed delimiter (f c)) (text : List Char) :
    Unclosed delimiter (text.flatMap f) := by
  induction text with
  | nil => exact nil
  | cons c text ih => exact (h c).append ih

theorem of_forall {text : List Char} (h : ∀ c ∈ text, c ≠ delimiter ∧ c ≠ '\\') : Unclosed delimiter text := by
  induction text with
  | nil => exact nil
  | cons c text ih =>
    obtain ⟨⟨hc, hslash⟩, htext⟩ := List.forall_mem_cons.mp h
    exact plain c text hc hslash (ih htext)

end Unclosed

theorem unclosed_encodeName (name : List Char) : Unclosed '"' (encodeName name) := by
  refine Unclosed.flatMap (fun c => ?_) name
  have h := encoded_encodeChar c
  generalize encodeChar c = written at h
  cases h with
  | plain hq hslash => exact .plain c [] hq hslash .nil
  | pair _ => exact .escape c [] .nil
  | control k rest _ hk =>
    refine .escape k rest (Unclosed.of_forall fun x hx => ?_)
    have hx := hk x (List.mem_cons_of_mem k hx)
    exact ⟨ne_of_isAlphanum hx (by decide), ne_of_isAlphanum hx (by decide)⟩

/-! ## Expression strings -/

theorem unclosed_escapeSingle (name : List Char) : Unclosed '\'' (escapeSingle name) := by
  refine Unclosed.flatMap (fun c => ?_) name
  unfold escapeSingleChar
  split
  · exact .escape '\\' [] .nil
  · next hslash =>
    split
    · exact .escape '\'' [] .nil
    · next hquote => exact .plain c [] hquote hslash .nil

/-! ## Names -/

theorem legible (name : List Char) : Legible name where
  string := ⟨spelled?_encodeName name, unclosed_encodeName name⟩
  escaped := ⟨encodeName name, spelled?_encodeName _, spelled?_encodeName name, unclosed_encodeName name⟩
  single := ⟨escapeSingle name, spelled?_encodeName _, unescape_escapeSingle name, unclosed_escapeSingle name⟩
  key := ⟨escapeSingle name, spelled?_encodeName _, unescape_escapeSingle name, unclosed_escapeSingle name⟩
  bracket h := by
    refine ⟨spelled?_encodeName name, Unclosed.of_forall fun c hc => ?_⟩
    have hbare := isBareKey_iff.mp h c hc
    simp only [List.mem_cons, List.not_mem_nil, or_false, not_or] at hbare
    obtain ⟨_, hclose, _, _, hslash⟩ := hbare
    exact ⟨hclose, hslash⟩
  content form context hb hacc hf := by
    have hadmits : form.admits name = true := by
      cases form with
      | string | escaped | single => rfl
      | bracket => exact absurd rfl hb
      | accessor => exact absurd rfl hacc
    exact Form.isStringContent_of_fits hb hacc hf hadmits

theorem quotedKey_inj {a b : List Char} (h : quotedKey a = quotedKey b) : a = b := by
  have hseen := encodeName_inj h
  rw [List.cons_append, List.cons_append] at hseen
  exact escapeSingle_inj (List.append_cancel_right (List.cons.inj hseen).2)

/-- Every name can be read back from the way each form writes it, where no delimiter in it closes the form; and no two
    names are written alike in one form. -/
theorem legible_names :
    (∀ name, Legible name) ∧ (∀ form : Form, Function.Injective form.write) ∧ Function.Injective quotedKey :=
  ⟨legible, fun _ _ _ => Form.write_inj, fun _ _ => quotedKey_inj⟩

/-- An apostrophe is escaped in the expression, and its backslash once more in the JSON string. -/
example : Form.single.write ['i', 't', '\'', 's'] = ['i', 't', '\\', '\\', '\'', 's'] ∧
    Form.escaped.write ['"'] = ['\\', '\\', '\\', '"'] := by decide

end FieldRemap
