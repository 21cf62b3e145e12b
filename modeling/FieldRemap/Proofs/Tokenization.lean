/-
  FieldRemap.Proofs.Tokenization — the references in a tokenized text.

  A text is tokenized with the tokens of a sound registry: they do not occur in it, nor in the
  name of an entry. So the references to a token, alone or with a suffix, are in the tokenized
  text exactly those that were redirected to it (`Tokenized.mem_findReferences`), and no entry
  is referred to there under its own name (`Tokenized.not_mentioned`).
-/

import FieldRemap.Proofs.Retarget
import FieldRemap.Proofs.Tracking

namespace FieldRemap

open Passage Retarget

theorem stops_of_endsAccessor {text : List Char} (h : Form.endsAccessor text = true) : Stops text := by
  intro c rest he
  subst he
  simp only [Form.endsAccessor, Bool.not_eq_true', Bool.or_eq_false_iff] at h
  exact Bool.eq_false_iff.mpr fun hc => by rw [isWord_of_isTokenChar hc] at h; cases h.1

theorem Form.stops_closer {form : Form} {text : List Char}
    (h : form = .accessor → Form.endsAccessor text = true) :
    Stops (form.closer ++ text) := by
  cases form with
  | accessor => exact stops_of_endsAccessor (h rfl)
  | string | escaped | single | bracket =>
    intro c rest hc
    obtain ⟨rfl, _⟩ := List.cons.inj hc
    decide

namespace Mention

variable {context : Context} {text : List Char} {m n : Mention context text}

theorem write_isInfix (m : Mention context text) : m.form.write m.name <:+: text := by
  refine ⟨m.before ++ m.form.opener, m.form.closer ++ m.rest, ?_⟩
  calc m.before ++ m.form.opener ++ m.form.write m.name ++ (m.form.closer ++ m.rest)
      = m.before ++ (m.form.wrap m.name ++ m.rest) := by simp [Form.wrap]
    _ = text := m.text_eq.symm

/-- Nothing opens inside a name of token characters. -/
theorem not_inside (hn : ∀ c ∈ n.name, isTokenChar c = true) : ¬ m.Inside n := by
  intro h
  obtain ⟨_, a, b, _, hw⟩ := h
  rw [n.form.write_of_isTokenChar hn] at hw
  obtain ⟨c, rest, hopener⟩ := List.exists_cons_of_ne_nil m.form.opener_ne_nil
  have hc : c ∈ m.form.opener := hopener ▸ List.mem_cons_self
  have hmem : c ∈ n.name := by simp [hw, Form.wrap, hc]
  exact absurd (hn c hmem) (by simp [Form.not_isTokenChar_of_mem_opener hc])

/-- Of two accessors that open at one place one may go on where the other ends, but not with a word
    character. -/
theorem Meets.cases (h : m.Meets n) : m.name = n.name ∨ (∃ c x, m.name = n.name ++ c :: x ∧ isWord c = false) ∨
    ∃ c x, n.name = m.name ++ c :: x ∧ isWord c = false := by
  by_cases hacc : m.form = .accessor
  · have hacc' : n.form = .accessor := h.form ▸ hacc
    have he : m.name ++ m.rest = n.name ++ n.rest := by
      have he := m.text_eq.symm.trans n.text_eq
      rw [h.before, hacc, hacc'] at he
      simpa [Form.wrap, Form.opener, Form.write, Form.closer] using he
    have ends {c : Char} {rest : List Char} (hends : Form.endsAccessor (c :: rest) = true) : isWord c = false := by
      simp only [Form.endsAccessor, Bool.not_eq_true', Bool.or_eq_false_iff] at hends
      exact hends.1
    have hm := m.ends hacc
    have hn := n.ends hacc'
    rcases List.append_eq_append_iff.mp he with ⟨y, hname, hrest⟩ | ⟨y, hname, hrest⟩
    · cases y with
      | nil => exact .inl (by simpa using hname.symm)
      | cons c x => exact .inr (.inr ⟨c, x, hname, ends (hrest ▸ hm)⟩)
    · cases y with
      | nil => exact .inl (by simpa using hname)
      | cons c x => exact .inr (.inl ⟨c, x, hname, ends (hrest ▸ hn)⟩)
  · exact .inl (h.name hacc)

/-- A mention in the place of one of token characters is of the same name. -/
theorem name_eq_of_within (hm : ∀ c ∈ m.name, isTokenChar c = true) (hstart : m.start ≤ n.start)
    (hstop : n.stop ≤ m.stop) : n.name = m.name := by
  have := m.first_lt_start
  have := n.first_lt_start
  have := m.start_lt_stop
  have := n.start_lt_stop
  have := n.stop_le_last
  have := m.stop_le_last
  rcases m.compare n with h | h | h | h | h
  · have := h.stop_lt; omega
  · have := h.stop_lt; omega
  · have := h.bounds; omega
  · exact absurd h (not_inside hm)
  · rcases h.cases with he | ⟨c, x, he, hc⟩ | ⟨c, x, he, _⟩
    · exact he.symm
    · have := isWord_of_isTokenChar (hm c (by simp [he]))
      rw [hc] at this
      cases this
    · -- the longer name would end later
      have hw : byteLength (n.form.write n.name) =
          byteLength (m.form.write m.name) + byteLength (m.form.write (c :: x)) := by
        rw [he, ← h.form, Form.write_append, byteLength_append]
      have hpos := byteLength_pos (@Form.write_ne_nil m.form _ (List.cons_ne_nil c x))
      have hs := h.start_eq
      simp only [stop] at hstop
      omega

/-- What is written behind a reference inside a name starts with no token character. -/
theorem Inside.exists_stops (h : n.Inside m) :
    ∃ front back, m.form.write m.name = front ++ (n.form.write n.name ++ back) ∧ Stops back := by
  obtain ⟨_, a, b, hbefore, hw⟩ := h
  refine ⟨a ++ n.form.opener, n.form.closer ++ b, by rw [hw]; simp [Form.wrap], Form.stops_closer fun hacc => ?_⟩
  have hrest : n.rest = b ++ (m.form.closer ++ m.rest) := by
    have hwrap : m.form.wrap m.name = m.form.opener ++ (a ++ (n.form.wrap n.name ++ b) ++ m.form.closer) := by
      rw [Form.wrap, hw]
    have he := n.text_eq.symm.trans m.text_eq
    rw [hbefore, hwrap] at he
    simpa using he
  have hends := n.ends hacc
  rw [hrest] at hends
  cases b with
  | nil => rfl
  | cons c b => exact hends

end Mention

/-! ## The names of a registry -/

namespace Registry

def renames (registry : Registry) : List (String × String) :=
  registry.byPlaceholder.map fun x => (x.2.name, x.1.text)

variable {registry : Registry} {text : List Char} {token : Placeholder} {entry : TrackedEntry}

theorem Sound.fresh_token (h : registry.Sound text) (hmem : (token, entry) ∈ registry.byPlaceholder) :
    ¬ token.chars <:+: text := by
  obtain ⟨hentry, htoken⟩ := mem_byPlaceholder.mp hmem
  exact h.fresh entry hentry token htoken

/-- No entry is named like a token, nor does its name hold one. -/
theorem Sound.fresh_name (h : registry.Sound text) (hmem : (token, entry) ∈ registry.byPlaceholder)
    {other : TrackedEntry}
    (hother : other ∈ registry.entries) : ¬ token.chars <:+: other.name.toList := by
  intro hsub
  obtain ⟨ending, _, m, hname⟩ := h.mentioned other hother
  refine h.fresh_token hmem ?_
  have hin : token.chars <:+: m.name := by
    rw [hname]
    exact hsub.trans (List.prefix_append _ _).isInfix
  have hwrite : token.chars <:+: m.form.write m.name := by
    rw [Placeholder.chars_eq_cons] at hin ⊢
    exact (Form.infix_write fun c hc => @Placeholder.isTokenChar_of_mem_chars token _ hc).mpr hin
  exact hwrite.trans m.write_isInfix

/-- A token belongs to one entry. -/
theorem Sound.entry_eq (h : registry.Sound text) {entry' : TrackedEntry}
    (hmem : (token, entry) ∈ registry.byPlaceholder)
    (hmem' : (token, entry') ∈ registry.byPlaceholder) : entry = entry' := by
  obtain ⟨hentry, htoken⟩ := mem_byPlaceholder.mp hmem
  obtain ⟨hentry', htoken'⟩ := mem_byPlaceholder.mp hmem'
  exact h.distinct entry hentry entry' hentry' token htoken htoken'

end Registry

/-! ## A tokenized text -/

/-- A text laid out for the tokens of a registry. -/
structure Tokenized (registry : Registry) (suffixes : List String) (text : List Char) (ps : List Passage)
    (tail : List Char) : Prop extends Redirected suffixes registry.renames text ps tail where
  sound : registry.Sound text
  nests : Context.outside.nests text = true
  suffixes_sub : ∀ suffix ∈ suffixes, suffix ∈ Convention.suffixes

namespace Tokenized

open Convention

variable {registry : Registry} {suffixes : List String} {text tail : List Char} {ps : List Passage}
  {next : Passage → List Char} {token : Placeholder} {entry : TrackedEntry} {ending : List Char}

theorem mem_endings {suffix : String} {priority : Nat}
    (hsub : ∀ suffix ∈ suffixes, suffix ∈ Convention.suffixes)
    (h : Ending suffixes suffix priority) : suffix.toList ∈ endings := by
  cases h with
  | own => exact List.mem_cons_self
  | suffix hmem => exact List.mem_cons_of_mem _ (List.mem_map_of_mem (hsub _ hmem))

/-- Each reference is turned from the name of an entry into its token, with the same ending. -/
theorem exists_token_of_redirected (h : Redirected suffixes registry.renames text ps tail)
    (hsub : ∀ suffix ∈ suffixes, suffix ∈ Convention.suffixes) {p : Passage} (hp : p ∈ ps) :
    ∃ token entry ending, (token, entry) ∈ registry.byPlaceholder ∧ ending ∈ endings ∧
      p.old = entry.name.toList ++ ending ∧ p.new = token.chars ++ ending := by
  obtain ⟨rename, hrename, ending, priority, hending, hold, hnew⟩ := h.renamed p hp
  obtain ⟨⟨token, entry⟩, hmem, rfl⟩ := List.mem_map.mp hrename
  refine ⟨token, entry, ending.toList, hmem, mem_endings hsub hending, ?_, ?_⟩
  · rw [hold, String.toList_append]
  · rw [hnew, String.toList_append, Placeholder.toList_text]

theorem exists_token (h : Tokenized registry suffixes text ps tail) {p : Passage} (hp : p ∈ ps) :
    ∃ token entry ending, (token, entry) ∈ registry.byPlaceholder ∧ ending ∈ endings ∧
      p.old = entry.name.toList ++ ending ∧ p.new = token.chars ++ ending :=
  exists_token_of_redirected h.toRedirected h.suffixes_sub hp

theorem isTokenChar_new (h : Tokenized registry suffixes text ps tail) {p : Passage} (hp : p ∈ ps) :
    ∀ c ∈ p.new, isTokenChar c = true := by
  obtain ⟨token, entry, ending, _, hending, _, hnew⟩ := h.exists_token hp
  rw [hnew]
  exact Placeholder.isTokenChar_of_mem_append hending

theorem admits_new (h : Tokenized registry suffixes text ps tail) {p : Passage} (hp : p ∈ ps) :
    p.form.admits p.new = true ∧ p.new ≠ [] := by
  have htoken := h.isTokenChar_new hp
  obtain ⟨token, entry, ending, _, _, _, hnew⟩ := h.exists_token hp
  rw [hnew, Placeholder.chars_eq_cons, List.cons_append] at htoken ⊢
  exact ⟨p.form.admits_of_isTokenChar htoken, List.cons_ne_nil _ _⟩

theorem woven_tokens (h : Tokenized registry suffixes text ps tail) (next : Passage → List Char) :
    Woven tail .outside (ps.map (refill next)) :=
  h.woven.refill fun _ hp => h.admits_new hp

theorem source_tokens (h : Tokenized registry suffixes text ps tail) (next : Passage → List Char) :
    source tail (ps.map (refill next)) = target tail ps :=
  source_refill fun _ hp => (h.admits_new hp).1

theorem nests_tokens (h : Tokenized registry suffixes text ps tail) (next : Passage → List Char) :
    Context.outside.nests (source tail (ps.map (refill next))) = true := by
  rw [h.woven.nests_refill fun p hp => (h.admits_new hp).1, h.source_eq]
  exact h.nests

/-- A mention of a token in the tokenized text is one of the references that were redirected. -/
theorem exists_located (h : Tokenized registry suffixes text ps tail)
    (hmem : (token, entry) ∈ registry.byPlaceholder)
    (hending : ending ∈ endings) (m : Mention .outside (source tail (ps.map (refill next))))
    (hname : m.name = token.chars ++ ending) :
    ∃ x ∈ located 0 (ps.map (refill next)), x.1 = m.reference ∧ x.2.old = m.name := by
  have hm : ∀ c ∈ m.name, isTokenChar c = true := hname ▸ Placeholder.isTokenChar_of_mem_append hending
  rcases (h.woven_tokens next).standing m with ⟨front, p, back, heq, n, hof, hmn⟩ | ⟨front, back, a, b, heq, _, hgap⟩
  · have hp : p ∈ ps.map (refill next) := by simp [heq]
    obtain ⟨q, hq, rfl⟩ := List.mem_map.mp hp
    have hn : ∀ c ∈ n.name, isTokenChar c = true := by
      rw [hof.name]
      exact h.isTokenChar_new hq
    rcases hmn with hmn | hmn | hmn
    · have hnames : m.name = n.name := by
        have word {c : Char} (hc : isTokenChar c = true) : isWord c ≠ false := by simp [isWord_of_isTokenChar hc]
        rcases hmn.cases with he | ⟨c, x, he, hc⟩ | ⟨c, x, he, hc⟩
        · exact he
        · exact absurd hc (word (hm c (by simp [he])))
        · exact absurd hc (word (hn c (by simp [he])))
      refine ⟨_, mem_located.mpr ⟨front, _, back, heq, rfl⟩, ?_, ?_⟩
      · rw [Nat.zero_add, ← hof.reference_eq]
        simp only [Mention.reference, Mention.stop, Mention.start, Mention.first, hmn.before, hmn.form, hnames]
      · rw [hnames, hof.name]
    · exact absurd hmn (Mention.not_inside hn)
    · exact absurd hmn (Mention.not_inside hm)
  · -- between the references stands what was there before
    refine absurd ?_ (h.sound.fresh_token hmem)
    obtain ⟨front, back, rfl, rfl, rfl⟩ := List.map_eq_append_iff.mp heq
    rw [gap_refill] at hgap
    rw [← h.source_eq]
    refine List.IsInfix.trans ?_ (gap_isInfix tail front back)
    rw [hgap, hname, Form.wrap, m.form.write_of_isTokenChar (Placeholder.isTokenChar_of_mem_append hending)]
    exact ⟨a ++ m.form.opener, ending ++ m.form.closer ++ b, by simp⟩

/-- The references to a token with an ending are those that were redirected to it. -/
theorem mem_findReferences (h : Tokenized registry suffixes text ps tail) (next : Passage → List Char)
    (hmem : (token, entry) ∈ registry.byPlaceholder)
    (hending : ending ∈ endings) {r : Reference} :
    r ∈ findReferences (token.chars ++ ending) (QuoteMap.lex (target tail ps)) (target tail ps) ↔
      ∃ x ∈ located 0 (ps.map (refill next)), x.1 = r ∧ x.2.old = token.chars ++ ending := by
  rw [← h.source_tokens next, FieldRemap.mem_findReferences (h.nests_tokens next)]
  constructor
  · intro h'
    obtain ⟨m, hname, rfl⟩ := h'
    obtain ⟨x, hx, hr, hold⟩ := h.exists_located hmem hending m hname
    exact ⟨x, hx, hr, hold.trans hname⟩
  · intro h'
    obtain ⟨x, hx, rfl, hold⟩ := h'
    obtain ⟨front, p, back, heq, rfl⟩ := mem_located.mp hx
    have hwoven := h.woven_tokens next
    rw [heq] at hwoven ⊢
    obtain ⟨m, hof⟩ := hwoven.exists_mention
    exact ⟨m, hof.name.trans hold, by rw [hof.reference_eq, Nat.zero_add]⟩

/-- The references to a token with an ending are as many as the passages that lead to it. -/
theorem length_findReferences_eq_countP (h : Tokenized registry suffixes text ps tail)
    (hmem : (token, entry) ∈ registry.byPlaceholder) (hending : ending ∈ endings) :
    (findReferences (token.chars ++ ending) (QuoteMap.lex (target tail ps)) (target tail ps)).length =
      ps.countP (fun p => p.new == token.chars ++ ending) := by
  have hmem' (r : Reference) := @mem_findReferences _ _ _ _ _ _ _ _ h Passage.old hmem hending r
  have hbounds : ∀ x ∈ located 0 (ps.map (refill Passage.old)), x.1.span.start ≤ x.1.span.stop := by
    intro x hx
    obtain ⟨front, p, back, _, rfl⟩ := mem_located.mp hx
    exact (reference_bounds _ p).2.1
  have hequal : findReferences (token.chars ++ ending) (QuoteMap.lex (target tail ps)) (target tail ps) =
      ((located 0 (ps.map (refill Passage.old))).filter fun x => x.2.old == token.chars ++ ending).map (·.1) := by
    refine @eq_of_mem_iff _ (·.span.start) _ _ ?_ (List.pairwise_map.mpr (List.Pairwise.filter _ ?_)) fun r => ?_
    · refine (pairwise_findReferences _ _ _).imp_of_mem fun {a b} ha _ hab => ?_
      obtain ⟨x, hx, rfl, _⟩ := (hmem' a).mp ha
      have := hbounds x hx
      omega
    · refine (pairwise_located _ _).imp_of_mem fun {a b} ha _ hab => ?_
      have := hbounds a ha
      omega
    · simp only [hmem', List.mem_map, List.mem_filter, beq_iff_eq]
      exact exists_congr fun x => by rw [and_comm (a := x.1 = r), and_assoc]
  calc (findReferences _ _ _).length
      = (located 0 (ps.map (refill Passage.old))).countP (fun x => x.2.old == token.chars ++ ending) := by
        rw [hequal, List.length_map, List.countP_eq_length_filter]
    _ = (ps.map (refill Passage.old)).countP (fun p => p.old == token.chars ++ ending) :=
        countP_located 0 _ fun p => p.old == token.chars ++ ending
    _ = ps.countP (fun p => p.new == token.chars ++ ending) := List.countP_map

/-- Where a name with an ending holds a reference of the tokenized text, the name holds a token. -/
theorem infix_of_bounded {token : Placeholder} {ending' name front back : List Char} {form : Form}
    (hending : ending ∈ endings) (hending' : ending' ∈ endings) (hback : Stops back)
    (hw : form.write (name ++ ending') = front ++ ((token.chars ++ ending) ++ back)) : token.chars <:+: name := by
  rw [form.write_append, form.write_of_isTokenChar (isTokenChar_of_mem_ending hending')] at hw
  have hsub := Placeholder.infix_of_bounded hending hending' hback hw.symm
  rw [Placeholder.chars_eq_cons] at hsub ⊢
  exact (Form.infix_write fun c hc => @Placeholder.isTokenChar_of_mem_chars token _ hc).mp hsub

/-- No entry is referred to in the tokenized text, neither by its name nor by a name derived from it. -/
theorem not_mentioned (h : Tokenized registry suffixes text ps tail)
    (hmem : (token, entry) ∈ registry.byPlaceholder)
    {suffix : String} {priority : Nat} (hsuffix : Ending suffixes suffix priority)
    (m : Mention .outside (source tail (ps.map (refill next)))) : m.name ≠ entry.name.toList ++ suffix.toList := by
  intro hname
  have hending' := mem_endings h.suffixes_sub hsuffix
  obtain ⟨hentry, _⟩ := Registry.mem_byPlaceholder.mp hmem
  rcases (h.woven_tokens next).standing m with
    ⟨front, p, back, heq, n, hof, hmn⟩ | ⟨front, back, a, b, heq, hbefore, hgap⟩
  · -- at a redirected reference the name would hold its token
    have hp : p ∈ ps.map (refill next) := by simp [heq]
    obtain ⟨q, hq, rfl⟩ := List.mem_map.mp hp
    obtain ⟨token', entry', ending, hmem', hending, _, hnew⟩ := h.exists_token hq
    have hn : n.name = token'.chars ++ ending := hof.name.trans hnew
    have hntoken : ∀ c ∈ n.name, isTokenChar c = true := hn ▸ Placeholder.isTokenChar_of_mem_append hending
    have hnot := h.sound.fresh_name hmem' hentry
    rcases hmn with hmn | hmn | hmn
    · have holds {back : List Char} (hback : Stops back) (he : m.name = n.name ++ back) : False := by
        refine hnot (Placeholder.infix_of_bounded hending hending' hback (show [] ++ _ = _ from ?_))
        rw [List.nil_append, ← hn, ← he, hname]
      rcases hmn.cases with he | ⟨c, x, he, hc⟩ | ⟨c, x, he, hc⟩
      · exact holds (nofun : Stops []) (by rw [he, List.append_nil])
      · refine holds (fun d rest hd => ?_) he
        obtain ⟨rfl, _⟩ := List.cons.inj hd
        exact Bool.eq_false_iff.mpr fun ht => by rw [isWord_of_isTokenChar ht] at hc; cases hc
      · have := isWord_of_isTokenChar (hntoken c (by simp [he]))
        rw [hc] at this
        cases this
    · exact Mention.not_inside hntoken hmn
    · obtain ⟨front, back, hw, hback⟩ := hmn.exists_stops
      rw [n.form.write_of_isTokenChar hntoken, hn, hname] at hw
      exact hnot (infix_of_bounded hending hending' hback hw)
  · -- between the references it would have been one of the candidates
    obtain ⟨front, back, rfl, rfl, rfl⟩ := List.map_eq_append_iff.mp heq
    rw [gap_refill] at hgap
    obtain ⟨m', hbefore', hform, hname'⟩ := h.woven.mention_of_gap
      (fun p hp => (h.admits_new (List.mem_append_left _ hp)).1) m (by simpa using hbefore) hgap
    have hapart := Woven.apart_of_gap m' hbefore' (by rw [hform, hname']; exact hgap)
    have hrename : (entry.name, token.text) ∈ registry.renames := List.mem_map.mpr ⟨_, hmem, rfl⟩
    have hcover := h.exists_cover h.nests
    rw [← h.source_eq] at hcover
    obtain ⟨x, hx, hstart, hstop⟩ := hcover m' hrename hsuffix (by rw [hname', hname, String.toList_append])
    have := m'.start_lt_stop
    rcases hapart x hx with hle | hle <;> omega

end Tokenized

/-! ## Tokenizing -/

def tokenSuffixes (isRemap : Bool) : List String :=
  if isRemap then Convention.suffixes else []

theorem tokenSuffixes_sub (isRemap : Bool) : ∀ suffix ∈ tokenSuffixes isRemap, suffix ∈ Convention.suffixes := by
  unfold tokenSuffixes
  split
  · exact fun _ h => h
  · exact fun _ h => absurd h List.not_mem_nil

/-- What tokenizing redirects: the names of the entries that have a token. -/
theorem Tokenize.edits_eq (request : TokenizationRequest) :
    Tokenize.edits request = Retarget.edits (gather (QuoteMap.lex request.specText.toList) request.specText.toList
      (if request.isRemap then request.supplementaryReplacers.filterMap (·.suffix?) else [])
      request.trackedFields.renames) := by
  rw [Tokenize.edits, gather, Registry.renames, List.flatMap_map]

theorem toList_tokenize (specText : String) (trackedFields : Registry) (isRemap : Bool) :
    (tokenize { specText, trackedFields, isRemap }).toList = splice specText.toList
      (Retarget.edits
        (gather (QuoteMap.lex specText.toList) specText.toList (tokenSuffixes isRemap) trackedFields.renames)) := by
  rw [tokenize, String.toList_ofList, Tokenize.edits_eq]
  rfl

/-- Tokenizing a text with a sound registry redirects the references of a layout. -/
theorem exists_tokenized {specText : String} {registry : Registry} (hs : registry.Sound specText.toList)
    (hn : Context.outside.nests specText.toList = true) (isRemap : Bool) :
    ∃ ps tail, Tokenized registry (tokenSuffixes isRemap) specText.toList ps tail ∧
      (tokenize { specText, trackedFields := registry, isRemap }).toList = target tail ps := by
  obtain ⟨ps, tail, h⟩ := exists_redirected (tokenSuffixes isRemap) registry.renames hn
  exact ⟨ps, tail, ⟨h, hs, hn, tokenSuffixes_sub isRemap⟩, (toList_tokenize _ _ _).trans h.splice_eq⟩

end FieldRemap
