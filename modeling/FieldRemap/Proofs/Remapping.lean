/-
  FieldRemap.Proofs.Remapping — a template filled in full.

  A run of token characters stands in a text without crossing a delimiter. So a token that a
  filled text refers to, alone or with a suffix, stood between the references before
  (`Woven.hasRun_target`) or is written in a supplied name. Where no supplied name holds a token,
  none is left (`remap_exportTemplate`).
-/

import FieldRemap.Proofs.Filling

namespace FieldRemap

open Passage Retarget

/-! ## Runs of token characters -/

def HasRun (run text : List Char) : Prop :=
  ∃ front back, text = front ++ (run ++ back) ∧ Stops back

theorem Stops.of_append {a b : List Char} (h : Stops (a ++ b)) : Stops a := by
  intro c rest he
  subst he
  exact h c (rest ++ b) rfl

theorem stops_append {a b : List Char} (ha : ∀ c ∈ a, isTokenChar c = false) (hb : a = [] → Stops b) : Stops
    (a ++ b) := by
  cases a with
  | nil => exact hb rfl
  | cons c a =>
    intro d rest hd
    obtain ⟨rfl, _⟩ := List.cons.inj hd
    exact ha _ List.mem_cons_self

namespace HasRun

variable {run a b : List Char}

theorem isInfix (h : HasRun run a) : run <:+: a := by
  obtain ⟨front, back, rfl, _⟩ := h
  exact ⟨front, back, by simp⟩

/-- A run does not go on behind a place where no token character stands. -/
theorem append (hrun : ∀ c ∈ run, isTokenChar c = true) (hb : Stops b) (h : HasRun run (a ++ b)) :
    HasRun run a ∨ HasRun run b := by
  obtain ⟨front, back, he, hback⟩ := h
  rcases List.append_eq_append_iff.mp he with ⟨x, rfl, hx⟩ | ⟨x, rfl, hx⟩
  · exact .inr ⟨x, back, hx, hback⟩
  · rcases List.append_eq_append_iff.mp hx with ⟨y, rfl, rfl⟩ | ⟨y, hy, rfl⟩
    · exact .inl ⟨front, y, rfl, hback.of_append⟩
    · cases y with
      | nil => exact .inl ⟨front, [], by simpa using hy.symm, nofun⟩
      | cons c y =>
        have := hrun c (by simp [hy])
        rw [hb c _ rfl] at this
        cases this

/-- A run does not start in delimiters. -/
theorem of_delimiters (hrun : ∀ c ∈ run, isTokenChar c = true) (hne : run ≠ [])
    (ha : ∀ c ∈ a, isTokenChar c = false)
    (h : HasRun run (a ++ b)) : HasRun run b := by
  induction a with
  | nil => exact h
  | cons c a ih =>
    obtain ⟨hc, ha⟩ := List.forall_mem_cons.mp ha
    refine ih ha ?_
    obtain ⟨front, back, he, hback⟩ := h
    cases front with
    | nil =>
      obtain ⟨d, run, rfl⟩ := List.exists_cons_of_ne_nil hne
      obtain ⟨rfl, _⟩ := List.cons.inj he
      have := hrun c List.mem_cons_self
      rw [hc] at this
      cases this
    | cons d front => exact ⟨front, back, (List.cons.inj he).2, hback⟩

end HasRun

/-- A reference is a run of the text when its name is one of token characters. -/
theorem hasRun_of_mem_findReferences {run text : List Char} {quotes : QuoteMap} {r : Reference}
    (hrun : ∀ c ∈ run, isTokenChar c = true) (h : r ∈ findReferences run quotes text) : HasRun run text := by
  obtain ⟨-, before, rest, rfl, -, -, hends⟩ := exists_of_mem_findReferences h
  refine ⟨before ++ r.form.opener, r.form.closer ++ rest, ?_, Form.stops_closer hends⟩
  simp [Form.wrap, r.form.write_of_isTokenChar hrun]

/-! ## Runs in a redirected text -/

theorem Form.not_isTokenChar_of_mem_closer {form : Form} {c : Char}
    (h : c ∈ form.closer) : isTokenChar c = false := by
  have : ∀ form : Form, ∀ c ∈ form.closer, isTokenChar c = false := by
    intro form
    cases form <;> exact forall_mem_of_all (by decide)
  exact this form c h

/-- A redirected reference is a name between delimiters; only an accessor has none behind it. -/
theorem Form.exists_rewrap (form : Form) (name : List Char) :
    ∃ front form' back, form.rewrap name = front ++ (Form.write form' name ++ back) ∧ front ≠ [] ∧
      (∀ c ∈ front, isTokenChar c = false) ∧ (∀ c ∈ back, isTokenChar c = false) ∧ (back = [] → form = .accessor) := by
  unfold Form.rewrap
  split
  · refine ⟨form.opener, form, form.closer, rfl, form.opener_ne_nil, fun c => not_isTokenChar_of_mem_opener,
      fun c => not_isTokenChar_of_mem_closer, ?_⟩
    cases form <;> simp [closer, opener]
  · refine ⟨['[', '\''], .single, ['\'', ']'], ?_, List.cons_ne_nil _ _, forall_mem_of_all (by decide),
      forall_mem_of_all (by decide), fun h => absurd h (List.cons_ne_nil _ _)⟩
    show '[' :: encodeName (['\''] ++ (escapeSingle name ++ ['\''])) ++ [']'] = _
    rw [encodeName_append, encodeName_append]
    have hquote : encodeName ['\''] = ['\''] := by decide
    simp [hquote, write]

/-- What stands behind a redirected text starts as before with a token character or not. -/
theorem stops_target {tail : List Char} {ps : List Passage} (h : Stops (source tail ps)) : Stops
    (target tail ps) := by
  cases ps with
  | nil => exact h
  | cons p ps =>
    rw [source_cons] at h
    rw [target_cons]
    cases hlead : p.lead with
    | nil =>
      obtain ⟨front, form, back, heq, hne, hfront, _⟩ := p.form.exists_rewrap p.new
      rw [List.nil_append, heq, List.append_assoc]
      exact stops_append hfront fun h => absurd h hne
    | cons c lead =>
      rw [hlead] at h
      intro d rest hd
      obtain ⟨rfl, _⟩ := List.cons.inj hd
      exact h c _ rfl

/-- A run of a redirected text stands between the references or in one of the new names. -/
theorem Woven.hasRun_target {run tail : List Char} {context : Context} {ps : List Passage}
    (hrun : ∀ c ∈ run, isTokenChar c = true) (hne : run ≠ []) (hwoven : Woven tail context ps)
    (h : HasRun run (target tail ps)) :
    (∃ front back, ps = front ++ back ∧ run <:+: gap tail back) ∨ ∃ p ∈ ps, ∃ form : Form, HasRun run
    (form.write p.new) := by
  induction hwoven with
  | nil => exact .inl ⟨[], [], rfl, h.isInfix⟩
  | @cons context p ps _ _ _ hends _ ih =>
    obtain ⟨front, form, back, heq, hfront_ne, hfront, hback, haccessor⟩ := p.form.exists_rewrap p.new
    rw [target_cons, heq, List.append_assoc, List.append_assoc] at h
    rcases h.append hrun (stops_append hfront fun h => absurd h hfront_ne) with h | h
    · exact .inl ⟨[], p :: ps, rfl, h.isInfix⟩
    · have hstops : Stops (back ++ target tail ps) :=
        stops_append hback fun h => stops_target (stops_of_endsAccessor (hends (haccessor h)))
      rcases (h.of_delimiters hrun hne hfront).append hrun hstops with h | h
      · exact .inr ⟨p, List.mem_cons_self, form, h⟩
      · rcases ih (h.of_delimiters hrun hne hback) with ⟨front, back, rfl, hgap⟩ | ⟨q, hq, form, hname⟩
        · exact .inl ⟨p :: front, back, rfl, hgap⟩
        · exact .inr ⟨q, List.mem_cons_of_mem _ hq, form, hname⟩

/-! ## No token is left -/

/-- Where no supplied name holds a token, no token stands in a filled text, alone or with a suffix. -/
theorem Tokenized.findReferences_eq_nil {registry : Registry} {suffixes : List String}
    {text tail ending : List Char}
    {ps : List Passage} {supply : Placeholder × TrackedEntry → String} {next : Passage → List Char}
    {token : Placeholder}
    {entry : TrackedEntry} (h : Tokenized registry suffixes text ps tail)
    (hnext : ∀ p ∈ ps, Filled registry supply p.new (next p))
    (hsupply : ∀ x ∈ registry.byPlaceholder, ∀ y ∈ registry.byPlaceholder, ¬ y.1.chars <:+: (supply x).toList)
    (hmem : (token, entry) ∈ registry.byPlaceholder) (hending : ending ∈ Convention.endings)
    (quotes : QuoteMap) :
    findReferences (token.chars ++ ending) quotes (target tail (ps.map (refill next))) = [] := by
  rw [List.eq_nil_iff_forall_not_mem]
  intro r hr
  have hrun := @Placeholder.isTokenChar_of_mem_append token ending hending
  have hne : token.chars ++ ending ≠ [] := by simp [Placeholder.chars_eq_cons]
  rcases (h.woven_tokens next).hasRun_target hrun hne (hasRun_of_mem_findReferences hrun hr) with
    ⟨front, back, heq, hgap⟩ | ⟨p, hp, form, front, back, hw, hback⟩
  · obtain ⟨front, back, rfl, rfl, rfl⟩ := List.map_eq_append_iff.mp heq
    rw [gap_refill] at hgap
    refine h.sound.fresh_token hmem ?_
    rw [← h.source_eq]
    exact (List.prefix_append _ _).isInfix.trans (hgap.trans (gap_isInfix tail front back))
  · obtain ⟨q, hq, rfl⟩ := List.mem_map.mp hp
    obtain ⟨token', entry', ending', hmem', hending', _, hname⟩ := hnext q hq
    rw [refill, hname] at hw
    exact hsupply _ hmem' _ hmem (infix_of_bounded hending hending' hback hw)

/-- A template filled in full, with names that hold none of its tokens, refers to no token, neither alone
    nor with a suffix of the host: all its tokens are missing. -/
theorem remap_exportTemplate (specText : String) (knownFields : List DatasetField)
    (information : TemplateInformation)
    (objectKey objectName : Slot → String) (h : Context.outside.nests specText.toList = true) :
    let template := exportTemplate specText knownFields information
    let slots := template.usermeta.dataset.map fun slot => slot.assign (objectKey slot) (objectName slot)
    let remapped := remap { tokenizedSpecText := template.specText, remapFields := slots }
    (∀ slot ∈ template.usermeta.dataset, ∀ token ∈ template.trackedFields.placeholders,
      ¬ token.chars <:+: (objectName slot).toList) →
    (∀ token ∈ template.trackedFields.placeholders,
      findReferences token.chars (QuoteMap.lex remapped.toList) remapped.toList = [] ∧
      ∀ suffix ∈ Convention.suffixes,
        findReferences (token.chars ++ suffix.toList) (QuoteMap.lex remapped.toList) remapped.toList = []) ∧
    missingTokens remapped template.trackedFields = template.trackedFields.placeholders := by
  intro template slots remapped hnames
  have hs : template.trackedFields.Sound specText.toList := sound_track rfl h
  obtain ⟨ps, tail, hps, hout⟩ := exists_tokenized hs h true
  obtain ⟨supply, hsupplied, hslot⟩ := exists_supplies template.trackedFields knownFields objectKey objectName
  obtain ⟨next, hnext⟩ := hps.exists_next supply
  have htext : remapped.toList = target tail (ps.map (refill next)) := by
    have hslots : supplied slots = template.trackedFields.supplies supply := hsupplied
    have hout : template.specText.toList = target tail ps := hout
    rw [toList_remap, hout, hslots]
    exact hps.splice_supplies hnext
  have hfree : ∀ x ∈ template.trackedFields.byPlaceholder, ∀ y ∈ template.trackedFields.byPlaceholder,
      ¬ y.1.chars <:+: (supply x).toList := by
    intro x hx y hy
    obtain ⟨slot, hmem, hname⟩ := hslot x hx
    rw [hname]
    apply hnames slot hmem
    rw [Registry.placeholders_eq hs.distinct]
    exact List.mem_map_of_mem hy
  have hnone : ∀ token ∈ template.trackedFields.byPlaceholder.map (·.1), ∀ ending ∈ Convention.endings,
      findReferences (token.chars ++ ending) (QuoteMap.lex remapped.toList) remapped.toList = [] := by
    intro token htoken ending hending
    obtain ⟨⟨token, entry⟩, hmem, rfl⟩ := List.mem_map.mp htoken
    rw [htext]
    exact hps.findReferences_eq_nil hnext hfree hmem hending _
  have halone : ∀ token ∈ template.trackedFields.byPlaceholder.map (·.1),
      findReferences token.chars (QuoteMap.lex remapped.toList) remapped.toList = [] := by
    intro token htoken
    have := hnone token htoken [] List.mem_cons_self
    rwa [List.append_nil] at this
  rw [Registry.placeholders_eq hs.distinct]
  constructor
  · intro token htoken
    refine ⟨halone token htoken, fun suffix hsuffix => ?_⟩
    exact hnone token htoken _ (List.mem_cons_of_mem _ (List.mem_map_of_mem hsuffix))
  · apply List.filter_eq_self.mpr
    intro token htoken
    rw [halone token htoken]
    rfl

/-- A name with quotes, a backslash and a dot for every slot: it holds no underscore, so no token. -/
theorem remap_exportTemplate_sales :
    let specText := "[\"Sales\",\"datum.Sales + datum['Sales__highlight']\"]"
    let template := exportTemplate specText [⟨"k", "Sales", .numeric, .measure, false⟩] {}
    let slots := template.usermeta.dataset.map fun slot => slot.assign "p" "'Net' \\ 1.5"
    let remapped := remap { tokenizedSpecText := template.specText, remapFields := slots }
    Context.outside.nests specText.toList = true ∧
      missingTokens remapped template.trackedFields = template.trackedFields.placeholders := by
  intro specText template slots remapped
  refine ⟨by decide, (remap_exportTemplate _ _ {} (fun _ => "p") (fun _ => "'Net' \\ 1.5") (by decide) ?_).2⟩
  intro _ _ token _ hsub
  have hmem : '_' ∈ "'Net' \\ 1.5".toList := hsub.subset (token.chars_eq_cons ▸ List.mem_cons_self)
  exact absurd hmem (by decide)

end FieldRemap
