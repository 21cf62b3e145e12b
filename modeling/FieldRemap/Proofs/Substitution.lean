/-
  FieldRemap.Proofs.Substitution — filling a text is one simultaneous substitution.

  The names that slots with tokens for keys redirect are runs of token characters, and which token
  and which suffix one is made of can be read off it. So two references to such names are one, of one
  slot, or stand apart with a delimiter between them (`Tokened.eq_or_apart`): every one of them wins
  (`Tokened.mem_arbitrate`), and none is in the way of another, in whatever order the slots are given
  and whatever is supplied for them (`remap_simultaneous`). What is supplied is written into a
  stretch of the text of its own and never read again, so tokens may be exchanged with each other.
-/

import FieldRemap.Proofs.Filling
import FieldRemap.Proofs.Overlap

namespace FieldRemap

open Retarget

/-! ## Stretches that are replaced -/

/-- A stretch of text that is kept, and one behind it that is replaced. -/
structure Replacement where
  kept : List Char
  old : List Char
  new : List Char
  deriving DecidableEq, Repr

namespace Replacement

def source (tail : List Char) : List Replacement → List Char
  | [] => tail
  | x :: xs => x.kept ++ (x.old ++ source tail xs)

def target (tail : List Char) : List Replacement → List Char
  | [] => tail
  | x :: xs => x.kept ++ (x.new ++ target tail xs)

def edits (pos : Nat) : List Replacement → List (Span × List Char)
  | [] => []
  | x :: xs =>
    let start := pos + byteLength x.kept
    let stop := start + byteLength x.old
    (⟨start, stop⟩, x.new) :: edits stop xs

theorem spliceFrom_edits (cursor : Nat) (tail : List Char) (xs : List Replacement) :
    spliceFrom cursor (source tail xs) (edits cursor xs) = target tail xs := by
  induction xs generalizing cursor with
  | nil => rfl
  | cons x xs ih => rw [source, edits, Passage.spliceFrom_cons, ih, target]

end Replacement

/-- The span starts and ends between characters of the text. -/
def Span.Cuts (span : Span) (text : List Char) : Prop :=
  ∃ front middle back, text = front ++ (middle ++ back) ∧
    span = ⟨byteLength front, byteLength front + byteLength middle⟩

/-- Spans that ascend without overlap part a text into stretches to keep and to replace. -/
theorem exists_replacements {done text : List Char} {edits : List (Span × List Char)}
    (hcuts : ∀ edit ∈ edits, edit.1.Cuts (done ++ text)) (hbehind : ∀ edit ∈ edits, byteLength done ≤ edit.1.start)
    (hapart : edits.Pairwise fun a b => a.1.stop ≤ b.1.start) :
    ∃ xs tail, Replacement.source tail xs = text ∧ Replacement.edits (byteLength done) xs = edits := by
  induction edits generalizing done text with
  | nil => exact ⟨[], text, rfl, rfl⟩
  | cons edit edits ih =>
    obtain ⟨span, new⟩ := edit
    obtain ⟨⟨front, old, back, htext, rfl⟩, hothers⟩ := List.forall_mem_cons.mp hcuts
    obtain ⟨hstart, -⟩ := List.forall_mem_cons.mp hbehind
    obtain ⟨hfirst, hpairwise⟩ := List.pairwise_cons.mp hapart
    obtain ⟨kept, rfl⟩ := prefix_of_byteLength_le ⟨text, rfl⟩ ⟨_, htext.symm⟩ hstart
    have hrest : text = kept ++ (old ++ back) := by simpa using htext
    have hdone : done ++ text = (done ++ (kept ++ old)) ++ back := by simp [hrest]
    obtain ⟨xs, tail, hsource, hedits⟩ := @ih (done ++ (kept ++ old)) back (hdone ▸ hothers)
      (fun e he => by simpa [Nat.add_assoc] using hfirst e he) hpairwise
    refine ⟨⟨kept, old, new⟩ :: xs, tail, ?_, ?_⟩
    · rw [Replacement.source, hsource, hrest]
    · simp only [byteLength_append] at hedits
      simp only [Replacement.edits, Nat.add_assoc, hedits, byteLength_append]

/-- Splicing ascending edits gives the text with its stretches replaced. -/
theorem exists_splice {text : List Char} {edits : List (Span × List Char)}
    (hcuts : ∀ edit ∈ edits, edit.1.Cuts text) (hapart : edits.Pairwise fun a b => a.1.stop ≤ b.1.start) :
    ∃ xs tail, Replacement.source tail xs = text ∧ Replacement.target tail xs = splice text edits ∧
      Replacement.edits 0 xs = edits := by
  obtain ⟨xs, tail, rfl, rfl⟩ := @exists_replacements [] text edits hcuts (fun _ _ => Nat.zero_le _) hapart
  exact ⟨xs, tail, rfl, (Replacement.spliceFrom_edits 0 tail xs).symm, rfl⟩

/-! ## The edit of a reference -/

variable {text name : List Char} {r : Reference}

/-- A redirected reference ends where the reference ends, and starts there or at its delimiter. -/
theorem Reference.redirect_bounds (r : Reference) (new : List Char) :
    (r.redirect new).1.stop = r.span.stop ∧ r.span.start - 1 ≤ (r.redirect new).1.start := by
  unfold redirect
  split
  · exact ⟨rfl, Nat.sub_le _ _⟩
  · split
    · exact ⟨rfl, Nat.le_refl _⟩
    · exact ⟨rfl, Nat.sub_le _ _⟩

theorem cuts_redirect (hr : r ∈ findReferences name (QuoteMap.lex text) text) (new : List Char) :
    (r.redirect new).1.Cuts text := by
  obtain ⟨-, before, rest, hfound⟩ := exists_isFound hr
  have hspan : r.span.Cuts text := by
    refine ⟨before ++ r.form.opener, r.form.write name, r.form.closer ++ rest, ?_, ?_⟩
    · rw [hfound.text_eq, List.append_assoc]
    · rw [hfound.span_eq, byteLength_append]
  unfold Reference.redirect
  split
  · exact hspan
  · split
    · next hform =>
      refine ⟨before, '.' :: r.form.write name, r.form.closer ++ rest, ?_, ?_⟩
      · rw [hfound.text_eq, hform]
        rfl
      · rw [hfound.span_eq, hform]
        simp only [Form.opener, byteLength_cons, byteLength_nil, show Char.utf8Size '.' = 1 by decide, Span.mk.injEq]
        omega
    · exact hspan

/-! ## Slots with tokens for keys -/

/-- The keys of the slots are tokens, each another one. -/
structure Tokened (slots : List Slot) : Prop where
  token : ∀ slot ∈ slots, ∃ token : Placeholder, slot.key = token.text
  nodup : (slots.map (·.key)).Nodup

theorem mem_supplied {slots : List Slot} {rename : String × String} :
    rename ∈ supplied slots ↔ ∃ slot ∈ slots, ∃ name, slot.suppliedName = some name ∧ rename = (slot.key, name) := by
  simp only [supplied, List.mem_filterMap, Option.map_eq_some_iff, eq_comm (a := rename)]

namespace Tokened

variable {slots : List Slot} (h : Tokened slots)

include h

theorem isTokenChar_of_mem {slot : Slot} (hslot : slot ∈ slots) {ending : List Char}
    (hending : ending ∈ Convention.endings) : ∀ c ∈ slot.key.toList ++ ending, isTokenChar c = true := by
  obtain ⟨token, hkey⟩ := h.token slot hslot
  rw [hkey, Placeholder.toList_text]
  exact Placeholder.isTokenChar_of_mem_append hending

/-- The slot and the ending of a name can be read off it. -/
theorem eq_of_name_eq {slot slot' : Slot} (hslot : slot ∈ slots) (hslot' : slot' ∈ slots) {ending ending' : List Char}
    (hending : ending ∈ Convention.endings) (hending' : ending' ∈ Convention.endings)
    (heq : slot.key.toList ++ ending = slot'.key.toList ++ ending') : slot = slot' ∧ ending = ending' := by
  obtain ⟨token, hkey⟩ := h.token slot hslot
  obtain ⟨token', hkey'⟩ := h.token slot' hslot'
  rw [hkey, hkey', Placeholder.toList_text, Placeholder.toList_text] at heq
  obtain ⟨rfl, rfl⟩ := Placeholder.append_ending_inj hending hending' heq
  exact ⟨List.inj_on_of_nodup_map h.nodup hslot hslot' (hkey.trans hkey'.symm), rfl⟩

/-- References of slots are one, of one slot and ending, or a delimiter stands between them. -/
theorem eq_or_apart {slot slot' : Slot} (hslot : slot ∈ slots) (hslot' : slot' ∈ slots) {ending ending' : List Char}
    (hending : ending ∈ Convention.endings) (hending' : ending' ∈ Convention.endings) {r r' : Reference}
    (hr : r ∈ findReferences (slot.key.toList ++ ending) (QuoteMap.lex text) text)
    (hr' : r' ∈ findReferences (slot'.key.toList ++ ending') (QuoteMap.lex text) text) :
    (r = r' ∧ slot = slot' ∧ ending = ending') ∨ r.span.stop < r'.span.start ∨ r'.span.stop < r.span.start := by
  have hname := h.isTokenChar_of_mem hslot hending
  have hname' := h.isTokenChar_of_mem hslot' hending'
  refine (eq_or_apart_of_isTokenChar hname hname' hr hr').imp_left fun ⟨hsame, heq⟩ => ?_
  exact ⟨hsame, h.eq_of_name_eq hslot hslot' hending hending' heq⟩

end Tokened

/-! ## The candidates -/

/-- The reference is to the key of a slot, alone or with an ending, and is turned into what is supplied for the
    slot, with the same ending. -/
def Fills (slots : List Slot) (text : List Char) (r : Reference) (new : List Char) : Prop :=
  ∃ slot ∈ slots, ∃ name, slot.suppliedName = some name ∧ ∃ ending ∈ Convention.endings,
    r ∈ findReferences (slot.key.toList ++ ending) (QuoteMap.lex text) text ∧ new = name.toList ++ ending

/-- An ending has one priority. -/
theorem Retarget.Ending.priority_eq {ending : String} {priority priority' : Nat}
    (h : Ending Convention.suffixes ending priority) (h' : Ending Convention.suffixes ending priority') :
    priority = priority' := by
  have hnone : "" ∉ Convention.suffixes := by decide
  cases h with
  | own =>
    cases h' with
    | own => rfl
    | suffix hmem => exact absurd hmem hnone
  | suffix hmem =>
    cases h' with
    | own => exact absurd hmem hnone
    | suffix => rfl

def fillings (text : List Char) (slots : List Slot) : List (Candidate Retarget) :=
  gather (QuoteMap.lex text) text Convention.suffixes (supplied slots)

section

variable {slots : List Slot} {c c' : Candidate Retarget}

theorem mem_fillings : c ∈ fillings text slots ↔ ∃ slot ∈ slots, ∃ name, slot.suppliedName = some name ∧
    ∃ ending priority, Ending Convention.suffixes ending priority ∧
      ∃ r ∈ findReferences (slot.key.toList ++ ending.toList) (QuoteMap.lex text) text,
        c = ⟨r.span, priority, (r, name ++ ending)⟩ := by
  simp only [fillings, mem_gather, mem_supplied, String.toList_append]
  constructor
  · intro h
    obtain ⟨_, ⟨slot, hslot, name, hname, rfl⟩, hc⟩ := h
    exact ⟨slot, hslot, name, hname, by simpa using hc⟩
  · intro h
    obtain ⟨slot, hslot, name, hname, hc⟩ := h
    exact ⟨_, ⟨slot, hslot, name, hname, rfl⟩, by simpa using hc⟩

/-- The fillings are the candidates and what they are to be turned into. -/
theorem fills_iff {new : List Char} :
    Fills slots text r new ↔ ∃ c ∈ fillings text slots, c.value.1 = r ∧ c.value.2.toList = new := by
  constructor
  · intro h
    obtain ⟨slot, hslot, name, hname, ending, hending, hr, rfl⟩ := h
    obtain ⟨suffix, priority, hsuffix, rfl⟩ := Tokenized.exists_ending hending
    exact ⟨⟨r.span, priority, (r, name ++ suffix)⟩,
      mem_fillings.mpr ⟨slot, hslot, name, hname, suffix, priority, hsuffix, r, hr, rfl⟩, rfl, String.toList_append⟩
  · intro h
    obtain ⟨c, hc, rfl, rfl⟩ := h
    obtain ⟨slot, hslot, name, hname, ending, priority, hending, r, hr, rfl⟩ := mem_fillings.mp hc
    exact ⟨slot, hslot, name, hname, ending.toList, Tokenized.mem_endings (fun _ h => h) hending, hr,
      String.toList_append⟩

/-- A candidate has the span of its reference, which is not empty. -/
theorem span_of_mem_fillings (hc : c ∈ fillings text slots) :
    c.value.1.span = c.span ∧ c.span.start < c.span.stop := by
  obtain ⟨_, _, _, _, _, _, _, r, hr, rfl⟩ := mem_fillings.mp hc
  exact ⟨rfl, (bounds_of_mem_findReferences hr).1⟩

end

namespace Tokened

variable {slots : List Slot} (h : Tokened slots) {c c' : Candidate Retarget} {edit : Span × List Char}

include h

/-- Two candidates are one, or a delimiter stands between them. -/
theorem eq_or_apart_of_mem_fillings (hc : c ∈ fillings text slots) (hc' : c' ∈ fillings text slots) :
    c = c' ∨ c.span.stop < c'.span.start ∨ c'.span.stop < c.span.start := by
  obtain ⟨slot, hslot, name, hname, ending, priority, hending, r, hr, rfl⟩ := mem_fillings.mp hc
  obtain ⟨slot', hslot', name', hname', ending', priority', hending', r', hr', rfl⟩ := mem_fillings.mp hc'
  have hmem := Tokenized.mem_endings (fun _ h => h) hending
  have hmem' := Tokenized.mem_endings (fun _ h => h) hending'
  refine (h.eq_or_apart hslot hslot' hmem hmem' hr hr').imp_left fun ⟨hsame, hslots, hendings⟩ => ?_
  subst hsame hslots
  obtain rfl : ending = ending' := String.toList_inj.mp hendings
  obtain rfl : name = name' := Option.some.inj (hname.symm.trans hname')
  rw [hending.priority_eq hending']

/-- Every candidate wins. -/
theorem mem_arbitrate : c ∈ Candidate.arbitrate (fillings text slots) ↔ c ∈ fillings text slots := by
  refine Candidate.mem_arbitrate_of_apart (fun x hx => (span_of_mem_fillings hx).2) fun x hx y hy => ?_
  exact (h.eq_or_apart_of_mem_fillings hx hy).imp_right fun hxy => hxy.imp Nat.le_of_lt Nat.le_of_lt

/-- Every reference is turned into what is supplied for it, whatever the others are turned into. -/
theorem mem_edits : edit ∈ Retarget.edits (fillings text slots) ↔
    ∃ r new, Fills slots text r new ∧ edit = r.redirect new := by
  rw [Retarget.edits, List.mem_map]
  constructor
  · intro hedit
    obtain ⟨c, hc, rfl⟩ := hedit
    exact ⟨c.value.1, c.value.2.toList, fills_iff.mpr ⟨c, h.mem_arbitrate.mp hc, rfl, rfl⟩, rfl⟩
  · intro hedit
    obtain ⟨r, new, hfills, rfl⟩ := hedit
    obtain ⟨c, hc, rfl, rfl⟩ := fills_iff.mp hfills
    exact ⟨c, h.mem_arbitrate.mpr hc, rfl⟩

/-- The edits ascend without overlap, also those that take the dot of an accessor. -/
theorem pairwise_edits : (Retarget.edits (fillings text slots)).Pairwise fun a b => a.1.stop ≤ b.1.start := by
  rw [Retarget.edits, List.pairwise_map]
  have hwinners : (Candidate.arbitrate (fillings text slots)).Pairwise fun a b => a.span.stop ≤ b.span.start :=
    Candidate.pairwise_arbitrate fun c hc => (span_of_mem_fillings hc).2
  refine hwinners.imp_of_mem fun {a b} ha hb hab => ?_
  have ha := h.mem_arbitrate.mp ha
  have hb := h.mem_arbitrate.mp hb
  obtain ⟨haspan, ha'⟩ := span_of_mem_fillings ha
  obtain ⟨hbspan, hb'⟩ := span_of_mem_fillings hb
  have hstop := (a.value.1.redirect_bounds a.value.2.toList).1
  have hstart := (b.value.1.redirect_bounds b.value.2.toList).2
  rw [haspan] at hstop
  rw [hbspan] at hstart
  rcases h.eq_or_apart_of_mem_fillings ha hb with rfl | hlt | hlt <;> omega

theorem cuts_of_mem_edits (hedit : edit ∈ Retarget.edits (fillings text slots)) : edit.1.Cuts text := by
  obtain ⟨r, new, ⟨slot, -, name, -, ending, -, hr, -⟩, rfl⟩ := h.mem_edits.mp hedit
  exact cuts_redirect hr new

/-- The order of the slots makes no difference. -/
theorem edits_perm {slots' : List Slot} (hperm : slots'.Perm slots) :
    Retarget.edits (fillings text slots') = Retarget.edits (fillings text slots) := by
  have hsupplied : (supplied slots').Perm (supplied slots) := hperm.filterMap _
  have hfillings : (fillings text slots').Perm (fillings text slots) := hsupplied.flatMap_right _
  rw [Retarget.edits, Retarget.edits]
  congr 1
  refine Candidate.arbitrate_perm hfillings fun x hx y hy hspan _ => ?_
  obtain ⟨-, hlt⟩ := span_of_mem_fillings hx
  rcases h.eq_or_apart_of_mem_fillings hx hy with heq | hxy | hyx
  · exact heq
  · rw [hspan] at hlt hxy
    omega
  · rw [hspan] at hlt hyx
    omega

end Tokened

/-! ## Filling a text -/

/-- Filling a text from slots with tokens for keys replaces stretches of it: exactly the references to the keys of
    assigned slots, with their suffixes, each by what its own slot supplies. What replaces a stretch that meets a
    reference of a slot, or the delimiter before it, is what that slot supplies, so where nothing is supplied the
    reference stays. The order of the slots makes no difference. -/
theorem remap_simultaneous {specText : String} {slots : List Slot} (h : Tokened slots) :
    (∃ replacements tail, Replacement.source tail replacements = specText.toList ∧
      Replacement.target tail replacements = (remap { tokenizedSpecText := specText, remapFields := slots }).toList ∧
      (∀ edit, edit ∈ Replacement.edits 0 replacements ↔
        ∃ r new, Fills slots specText.toList r new ∧ edit = r.redirect new) ∧
      ∀ slot ∈ slots, ∀ ending ∈ Convention.endings,
        ∀ r ∈ findReferences (slot.key.toList ++ ending) (QuoteMap.lex specText.toList) specText.toList,
          ∀ edit ∈ Replacement.edits 0 replacements,
            edit.1.stop < r.span.start ∨ r.span.stop ≤ edit.1.start ∨
              ∃ name, slot.suppliedName = some name ∧ edit = r.redirect (name.toList ++ ending)) ∧
    ∀ slots' : List Slot, slots'.Perm slots →
      remap { tokenizedSpecText := specText, remapFields := slots' } =
        remap { tokenizedSpecText := specText, remapFields := slots } := by
  constructor
  · obtain ⟨replacements, tail, hsource, htarget, hedits⟩ :=
      @exists_splice specText.toList _ (fun _ => h.cuts_of_mem_edits) h.pairwise_edits
    refine ⟨replacements, tail, hsource, ?_, fun edit => ?_, fun slot hslot ending hending r hr edit hedit => ?_⟩
    · rw [htarget, toList_remap]
      rfl
    · rw [hedits]
      exact h.mem_edits
    · rw [hedits] at hedit
      obtain ⟨r', new, ⟨slot', hslot', name, hname, ending', hending', hr', rfl⟩, rfl⟩ := h.mem_edits.mp hedit
      obtain ⟨hstop, hstart⟩ := r'.redirect_bounds (name.toList ++ ending')
      rcases h.eq_or_apart hslot hslot' hending hending' hr hr' with ⟨rfl, rfl, rfl⟩ | hlt | hlt
      · exact .inr (.inr ⟨name, hname, rfl⟩)
      · exact .inr (.inl (by omega))
      · exact .inl (by omega)
  · intro slots' hperm
    apply String.toList_inj.mp
    rw [toList_remap, toList_remap]
    exact congrArg (splice specText.toList) (h.edits_perm hperm)

/-- Two tokens exchanged, one of them with a suffix; a token of the same index that nothing is supplied for stays. -/
theorem remap_simultaneous_exchanged :
    let specText := "[\"__0__\", \"datum.__1____highlight\", \"__01__\"]"
    let slots := [(Slot.new "__0__" "Sales" .numeric .measure).assign "p" "__1__",
      (Slot.new "__1__" "Profit" .numeric .measure).assign "q" "__0__", Slot.new "__01__" "Year" .text .column]
    Tokened slots ∧ slots.reverse.Perm slots ∧
      remap { tokenizedSpecText := specText, remapFields := slots.reverse } =
        remap { tokenizedSpecText := specText, remapFields := slots } ∧
      remap { tokenizedSpecText := specText, remapFields := slots } =
        "[\"__1__\", \"datum.__0____highlight\", \"__01__\"]" := by
  intro specText slots
  have htoken : ∀ slot ∈ slots, ∃ token : Placeholder, slot.key = token.text := by
    simp only [slots, List.forall_mem_cons, List.not_mem_nil, false_implies, implies_true, and_true]
    exact ⟨⟨⟨['0'], by decide, forall_mem_of_all (by decide)⟩, rfl⟩,
      ⟨⟨['1'], by decide, forall_mem_of_all (by decide)⟩, rfl⟩,
      ⟨⟨['0', '1'], by decide, forall_mem_of_all (by decide)⟩, rfl⟩⟩
  have h : Tokened slots := ⟨htoken, by decide⟩
  have hperm := List.reverse_perm slots
  refine ⟨h, hperm, (remap_simultaneous h).2 slots.reverse hperm, ?_⟩
  rw [remap, Remap.edits, Retarget.edits, Candidate.arbitrate_of_pairwise] <;> decide +kernel

end FieldRemap
