/-
  FieldRemap.Proofs.Agreement — the uses that are tracked and the references that are redirected.

  Tracking settles the candidates of all known fields, tokenizing those of the fields with a
  token. Both give a reference to the same field: what wins on one side is a candidate on the
  other, of the same priority, and there nothing that holds it can win over it
  (`Traced.redirected`, `Traced.used`). So the references to a token are as many as the uses its
  entry counts.
-/

import FieldRemap.Proofs.Tokenization

namespace FieldRemap

open Passage Retarget Track

/-! ## Endings of names -/

theorem ending_of_use {ending : String} {priority : Nat} {kind : UsageKind}
    (h : Use Convention.defaults .direct ending priority kind) : Ending Convention.suffixes ending priority := by
  cases h with
  | own => exact .own
  | derived _ hmem hsuffix _ => exact .suffix (List.mem_filterMap.mpr ⟨_, hmem, hsuffix⟩)

theorem exists_use_of_ending {ending : String} {priority : Nat}
    (h : Ending Convention.suffixes ending priority) :
    ∃ kind, Use Convention.defaults .direct ending priority kind := by
  cases h with
  | own => exact ⟨_, .own⟩
  | suffix hmem =>
    obtain ⟨convention, hmem, hsuffix⟩ := List.mem_filterMap.mp hmem
    have : ∀ convention ∈ Convention.defaults, convention.suffix?.isSome = true →
        convention.kind.usageKind?.isSome = true := by decide
    obtain ⟨kind, hkind⟩ := Option.isSome_iff_exists.mp (this convention hmem (by rw [hsuffix]; rfl))
    exact ⟨kind, .derived rfl hmem hsuffix hkind⟩

/-- What a name ends in tells the kind of a use, and the other way round. -/
theorem ending_eq_iff_kind_eq {ending ending' : String} {priority priority' : Nat} {kind kind' : UsageKind}
    (h : Use Convention.defaults .direct ending priority kind)
    (h' : Use Convention.defaults .direct ending' priority' kind') :
    ending = ending' ↔ kind = kind' := by
  have own : ∀ convention ∈ Convention.defaults, ∀ suffix ∈ convention.suffix?, ∀ kind ∈ convention.kind.usageKind?,
      suffix ≠ "" ∧ kind ≠ .direct := by decide
  have derived : ∀ a ∈ Convention.defaults, ∀ b ∈ Convention.defaults, ∀ s ∈ a.suffix?, ∀ t ∈ b.suffix?,
      ∀ j ∈ a.kind.usageKind?, ∀ k ∈ b.kind.usageKind?, (s = t ↔ j = k) := by decide
  cases h with
  | own =>
    cases h' with
    | own => simp
    | derived _ hmem hsuffix hkind =>
      obtain ⟨hs, hk⟩ := own _ hmem _ hsuffix _ hkind
      simp [hs.symm, hk.symm]
  | derived _ hmem hsuffix hkind =>
    cases h' with
    | own =>
      obtain ⟨hs, hk⟩ := own _ hmem _ hsuffix _ hkind
      simp [hs, hk]
    | derived _ hmem' hsuffix' hkind' => exact derived _ hmem _ hmem' _ hsuffix _ hsuffix' _ hkind _ hkind'

/-- Of two endings of one priority that names can be split at, neither is longer. -/
theorem split_eq {name name' : List Char} {ending ending' : String} {priority : Nat}
    (h : Ending Convention.suffixes ending priority) (h' : Ending Convention.suffixes ending' priority)
    (he : name ++ ending.toList = name' ++ ending'.toList) : name = name' ∧ ending = ending' := by
  suffices heq : ending = ending' by
    subst heq
    exact ⟨List.append_cancel_right he, rfl⟩
  have hnil : ∀ suffix ∈ Convention.suffixes, suffix.toList ≠ [] := by decide
  have hmem := Tokenized.mem_endings (fun _ h => h) h
  have hmem' := Tokenized.mem_endings (fun _ h => h) h'
  rcases h with _ | hs
  · rcases h' with _ | _
    rfl
  · rcases h' with _ | hs'
    apply String.toList_inj.mp
    rcases List.append_eq_append_iff.mp he with ⟨x, _, hx⟩ | ⟨x, _, hx⟩
    · exact (Convention.eq_of_suffix hmem' hmem (hnil _ hs') ⟨x, hx.symm⟩).symm
    · exact Convention.eq_of_suffix hmem hmem' (hnil _ hs) ⟨x, hx.symm⟩

/-! ## Reserved names -/

/-- The name of a field that is not used directly is no name of another field, with a suffix or without. -/
theorem ne_reserved {field : DatasetField} (hown : ownUsage? Convention.defaults field = some .direct)
    {suffix : List Char}
    (hsuffix : suffix ∈ Convention.endings) {name : String} (hname : IsReservedName name) :
    field.name.toList ++ suffix ≠ name.toList := by
  intro he
  have hlast : name.toList.getLast? = some '_' := by rcases hname with rfl | rfl <;> decide
  rw [← he, List.getLast?_append] at hlast
  cases hs : suffix.getLast? with
  | some c =>
    rw [hs] at hlast
    exact Convention.getLast?_ne_of_ending hsuffix (hs.trans hlast)
  | none =>
    obtain rfl : suffix = [] := List.getLast?_eq_none_iff.mp hs
    obtain rfl : field.name = name := String.toList_inj.mp (by rw [← he, List.append_nil])
    rcases ownUsage?_defaults hown with ⟨_, hnot⟩ | ⟨hreserved, _⟩
    · exact hnot hname
    · cases hreserved

theorem ending_of_reserved_use {conventions : List Convention} {own kind : UsageKind} {ending : String}
    {priority : Nat}
    (h : Use conventions own ending priority kind) (hown : own.isReserved = true) : ending = "" := by
  cases h with
  | own => rfl
  | derived hdirect =>
    subst hdirect
    cases hown

theorem isTokenChar_of_reserved {name : String}
    (h : IsReservedName name) : ∀ c ∈ name.toList, isTokenChar c = true := by
  rcases h with rfl | rfl <;> exact forall_mem_of_all (by decide)

/-- The name of a field that is used directly is not referred to in the place of a reserved name. -/
theorem not_within_reserved {context : Context} {text : List Char} {field : DatasetField}
    (hown : ownUsage? Convention.defaults field = some .direct) {suffix : List Char}
    (hsuffix : suffix ∈ Convention.endings) {name : String} (hname : IsReservedName name)
    {m n : Mention context text} (hn : n.name = field.name.toList ++ suffix) (hm : m.name = name.toList)
    (hwithin : n.reference.span.Within m.reference.span) : False := by
  have hsame : n.name = m.name :=
    Mention.name_eq_of_within (by rw [hm]; exact isTokenChar_of_reserved hname) hwithin.1 hwithin.2
  exact ne_reserved hown hsuffix hname (by rw [← hn, hsame, hm])

/-! ## Candidates on both sides -/

variable {text : List Char} {fields : List DatasetField} {registry : Registry}

/-- A candidate of a known field is a mention of its name, or of a name derived from it. -/
theorem mention_of_use (hn : Context.outside.nests text = true) {c : Candidate Hit}
    (h : c ∈ allCandidates Convention.defaults text fields) :
    ∃ x ∈ fields.zipIdx, ∃ own ending, ownUsage? Convention.defaults x.1 = some own ∧ c.value.field = x.2 ∧
      Use Convention.defaults own ending c.priority c.value.usage ∧
        ∃ m : Mention .outside text, m.name = x.1.name.toList ++ ending.toList ∧ c.span = m.reference.span := by
  obtain ⟨x, hx, own, ending, hown, hfield, huse, r, hr, hspan⟩ := use_of_mem_allCandidates h
  obtain ⟨m, hname, rfl⟩ := (mem_findReferences hn).mp hr
  exact ⟨x, hx, own, ending, hown, hfield, huse, m, by rw [hname, String.toList_append], hspan.symm⟩

theorem use_of_mention (hn : Context.outside.nests text = true) {x : DatasetField × Nat}
    (hx : x ∈ fields.zipIdx)
    {own : UsageKind} (hown : ownUsage? Convention.defaults x.1 = some own) {ending : String} {priority : Nat}
    {kind : UsageKind}
    (huse : Use Convention.defaults own ending priority kind) (m : Mention .outside text)
    (hname : m.name = x.1.name.toList ++ ending.toList) :
    ⟨m.reference.span, priority, ⟨x.2, kind⟩⟩ ∈ allCandidates Convention.defaults text fields := by
  refine mem_allCandidates.mpr ⟨x, hx, mem_fieldCandidates.mpr ?_⟩
  refine ⟨own, hown, ending, priority, kind, huse, m.reference, ?_, rfl⟩
  exact (mem_findReferences hn).mpr ⟨m, by rw [hname, String.toList_append], rfl⟩

theorem laminar_allCandidates (hn : Context.outside.nests text = true) :
    Candidate.Laminar (allCandidates Convention.defaults text fields) := by
  apply @Candidate.laminar_of_mentions _ .outside text _
  intro c hc
  obtain ⟨_, _, _, _, _, _, _, m, _, hspan⟩ := mention_of_use hn hc
  exact ⟨m, hspan⟩

def Registry.redirects (registry : Registry) (text : List Char) : List (Candidate Retarget) :=
  gather (QuoteMap.lex text) text Convention.suffixes registry.renames

theorem mention_of_redirect (hn : Context.outside.nests text = true) {c : Candidate Retarget}
    (h : c ∈ registry.redirects text) :
    ∃ token entry ending, (token, entry) ∈ registry.byPlaceholder ∧ Ending Convention.suffixes ending c.priority ∧
      c.value.2 = token.text ++ ending ∧
        ∃ m : Mention .outside text, m.name = entry.name.toList ++ ending.toList ∧ c.span = m.reference.span := by
  obtain ⟨rename, hrename, ending, priority, hending, r, hr, rfl⟩ := mem_gather.mp h
  obtain ⟨⟨token, entry⟩, hmem, rfl⟩ := List.mem_map.mp hrename
  obtain ⟨m, hname, rfl⟩ := (mem_findReferences hn).mp hr
  exact ⟨token, entry, ending, hmem, hending, rfl, m, by rw [hname, String.toList_append], rfl⟩

theorem redirect_of_mention (hn : Context.outside.nests text = true) {token : Placeholder}
    {entry : TrackedEntry}
    (hmem : (token, entry) ∈ registry.byPlaceholder) {ending : String} {priority : Nat}
    (hending : Ending Convention.suffixes ending priority) (m : Mention .outside text)
    (hname : m.name = entry.name.toList ++ ending.toList) :
    ⟨m.reference.span, priority, (m.reference, token.text ++ ending)⟩ ∈ registry.redirects text := by
  refine mem_gather.mpr ⟨_, List.mem_map.mpr ⟨_, hmem, rfl⟩, ending, priority, hending, m.reference, ?_, rfl⟩
  exact (mem_findReferences hn).mpr ⟨m, by rw [hname, String.toList_append], rfl⟩

/-! ## Fields of one name -/

theorem index_le {x y : DatasetField × Nat} (hn : Context.outside.nests text = true) (hx : x ∈ fields.zipIdx)
    (hy : y ∈ fields.zipIdx) (hown : ownUsage? Convention.defaults x.1 = some .direct)
    (hown' : ownUsage? Convention.defaults y.1 = some .direct) (hname : x.1.name = y.1.name)
    (hused : ∃ hit ∈ hits Convention.defaults text fields, hit.field = x.2) : x.2 ≤ y.2 := by
  obtain ⟨hit, hhit, hfield⟩ := hused
  rw [hits_eq] at hhit
  obtain ⟨w, hw, rfl⟩ := List.mem_map.mp hhit
  obtain ⟨z, hz, own, ending, hown'', hwfield, huse, m, hm, hspan⟩ :=
    mention_of_use hn (Candidate.mem_of_mem_arbitrate hw)
  obtain rfl : z = x := eq_of_index_eq hz hx (hwfield.symm.trans hfield)
  obtain rfl : own = .direct := Option.some.inj (hown''.symm.trans hown)
  have hc := use_of_mention hn hy hown' huse m (by rw [hm, hname])
  have hfirst := Candidate.first_of_mem_arbitrate (laminar_allCandidates hn).spans (pairwise_allCandidates _ _ _) hw hc hspan
  rcases hfirst rfl with heq | hle
  · rw [← hwfield, heq]
  · rw [← hwfield]
    exact hle

/-- Of the fields of one name only the first is ever used. -/
theorem eq_of_name_eq {x y : DatasetField × Nat} (hn : Context.outside.nests text = true)
    (hx : x ∈ fields.zipIdx)
    (hy : y ∈ fields.zipIdx) (hown : ownUsage? Convention.defaults x.1 = some .direct)
    (hown' : ownUsage? Convention.defaults y.1 = some .direct) (hname : x.1.name = y.1.name)
    (hused : ∃ hit ∈ hits Convention.defaults text fields, hit.field = x.2)
    (hused' : ∃ hit ∈ hits Convention.defaults text fields, hit.field = y.2) : x = y := by
  apply eq_of_index_eq hx hy
  have hxy := index_le hn hx hy hown hown' hname hused
  have hyx := index_le hn hy hx hown' hown hname.symm hused'
  omega

/-! ## Winners on both sides -/

/-- A field that is used directly, with the token and the entry that count its uses. -/
structure Owner (registry : Registry) (fields : List DatasetField) (text : List Char) (x : DatasetField × Nat)
    (token : Placeholder) (entry : TrackedEntry) : Prop where
  mem : (token, entry) ∈ registry.byPlaceholder
  known : x ∈ fields.zipIdx
  own : ownUsage? Convention.defaults x.1 = some .direct
  counts : Counts (hits Convention.defaults text fields) x.1 x.2 entry

structure Traced (registry : Registry) (fields : List DatasetField) (text : List Char) : Prop where
  sound : registry.Sound text
  nests : Context.outside.nests text = true
  field : ∀ token entry, (token, entry) ∈ registry.byPlaceholder → ∃ x, Owner registry fields text x token entry
  entry : ∀ x ∈ fields.zipIdx, ownUsage? Convention.defaults x.1 = some .direct →
    (∃ hit ∈ hits Convention.defaults text fields, hit.field = x.2) →
      ∃ token entry, Owner registry fields text x token entry

/-- Tracking fields of different keys gives each of those in use its own entry. -/
theorem traced_ofEntries {request : TrackingRequest}
    (hpatterns : request.supplementaryPatterns = Convention.defaults)
    (hn : Context.outside.nests request.specText.toList = true)
    (hkeys : (request.knownFields.map (·.key)).Nodup)
    (h : (track request).trackedFields = .ofEntries (passEntries request)) :
    Traced (.ofEntries (passEntries request)) request.knownFields request.specText.toList := by
  refine ⟨h ▸ sound_track hpatterns hn, hn, fun token entry hmem => ?_, fun x hx hown hused => ?_⟩
  · obtain ⟨hentry, htoken⟩ := Registry.mem_byPlaceholder.mp hmem
    obtain ⟨_, x, hx, hcounts, hiff⟩ := counts_of_mem_passEntries hpatterns (Registry.mem_of_mem_ofEntries hentry)
    exact ⟨x, hmem, hx, hiff.mp (by rw [htoken]; rfl), hcounts⟩
  · obtain ⟨entry, hentry, hcounts, hiff⟩ := exists_passEntry hpatterns hkeys hx hused
    obtain ⟨token, htoken⟩ := Option.isSome_iff_exists.mp (hiff.mpr hown)
    have hmatched : ∀ e ∈ passEntries request, 0 < e.matchCount := by
      intro e he
      exact (counts_of_mem_passEntries hpatterns he).1
    have hmem := Registry.mem_ofEntries (pairwise_passEntries hkeys) hmatched hentry
    exact ⟨token, entry, Registry.mem_byPlaceholder.mpr ⟨hmem, htoken⟩, hx, hown, hcounts⟩

namespace Traced

variable {token : Placeholder} {entry : TrackedEntry} {x : DatasetField × Nat} {ending : String} {priority : Nat}
  {kind : UsageKind}

/-- Tokens of fields of one name are one. -/
theorem owner_eq (h : Traced registry fields text) {token' : Placeholder} {entry' : TrackedEntry}
    {y : DatasetField × Nat}
    (hx : Owner registry fields text x token entry) (hy : Owner registry fields text y token' entry')
    (hname : x.1.name = y.1.name) : x = y ∧ token = token' := by
  obtain rfl : x = y :=
    eq_of_name_eq h.nests hx.known hy.known hx.own hy.own hname hx.counts.used hy.counts.used
  obtain ⟨hentry, htoken⟩ := Registry.mem_byPlaceholder.mp hx.mem
  obtain ⟨hentry', htoken'⟩ := Registry.mem_byPlaceholder.mp hy.mem
  have hentries : entry = entry' := Registry.eq_of_fieldKey_eq hentry hentry' (hx.counts.key.trans hy.counts.key.symm)
  exact ⟨rfl, Option.some.inj (by rw [← htoken, ← htoken', hentries])⟩

/-- Where a use of a field with a token is tracked, the reference is redirected to the token. -/
theorem redirected (h : Traced registry fields text) (hx : Owner registry fields text x token entry)
    (huse : Use Convention.defaults .direct ending priority kind) {w : Candidate Hit}
    (hw : w ∈ Candidate.arbitrate (allCandidates Convention.defaults text fields))
    (hvalue : w.value = ⟨x.2, kind⟩) :
    ∃ v ∈ Candidate.arbitrate (registry.redirects text), v.value.2 = token.text ++ ending ∧ v.span = w.span := by
  have hlaminar : Candidate.Laminar (registry.redirects text) := laminar_gather h.nests
  obtain ⟨y, hy, own, ending', hown, hfield, huse', m, hm, hspan⟩ :=
    mention_of_use h.nests (Candidate.mem_of_mem_arbitrate hw)
  obtain rfl : y = x := eq_of_index_eq hy hx.known (by rw [← hfield, hvalue])
  obtain rfl : own = .direct := Option.some.inj (hown.symm.trans hx.own)
  obtain rfl : ending' = ending := (ending_eq_iff_kind_eq huse' huse).mpr (by rw [hvalue])
  -- the reference is a candidate for the token too, and lies in a winner
  have hc := redirect_of_mention h.nests hx.mem (ending_of_use huse') m (by rw [hm, hx.counts.name])
  obtain ⟨v, hv, hwithin⟩ := hlaminar.exists_within hc
  obtain ⟨token', entry', ending'', hmem, hending, hvalue', n, hn, hspan'⟩ :=
    mention_of_redirect h.nests (Candidate.mem_of_mem_arbitrate hv)
  obtain ⟨z, hz⟩ := h.field token' entry' hmem
  rw [hz.counts.name] at hn
  obtain ⟨kind', huse''⟩ := exists_use_of_ending hending
  have hd := use_of_mention h.nests hz.known hz.own huse'' n hn
  obtain ⟨hvw, hpriority⟩ :=
    (laminar_allCandidates h.nests).agree hlaminar hw hd hc hv ⟨hspan.symm, rfl⟩ ⟨hspan'.symm, rfl⟩ hwithin
  -- both are of one name
  have hnames : n.name = m.name := Mention.name_eq_of_span (by rw [← hspan', hvw, hspan])
  rw [hpriority] at hending
  obtain ⟨hname, rfl⟩ := split_eq hending (ending_of_use huse') (by rw [← hn, ← hm, hnames])
  obtain ⟨_, rfl⟩ := h.owner_eq hz hx (String.toList_inj.mp hname)
  exact ⟨v, hv, hvalue', hvw⟩

/-- Where a reference is redirected to a token, a use of its field is tracked. -/
theorem used (h : Traced registry fields text) (hx : Owner registry fields text x token entry)
    (huse : Use Convention.defaults .direct ending priority kind) {v : Candidate Retarget}
    (hv : v ∈ Candidate.arbitrate (registry.redirects text)) (hvalue : v.value.2 = token.text ++ ending) :
    ∃ w ∈ Candidate.arbitrate (allCandidates Convention.defaults text fields),
      w.value = ⟨x.2, kind⟩ ∧ w.span = v.span := by
  have hlaminar : Candidate.Laminar (registry.redirects text) := laminar_gather h.nests
  have hending := Tokenized.mem_endings (fun _ h => h) (ending_of_use huse)
  obtain ⟨token', entry', ending', hmem, hending', hvalue', n, hn, hspan⟩ :=
    mention_of_redirect h.nests (Candidate.mem_of_mem_arbitrate hv)
  obtain ⟨rfl, htoList⟩ : token' = token ∧ ending'.toList = ending.toList := by
    have := congrArg String.toList (hvalue'.symm.trans hvalue)
    simp only [String.toList_append, Placeholder.toList_text] at this
    exact Placeholder.append_ending_inj (Tokenized.mem_endings (fun _ h => h) hending') hending this
  obtain rfl : ending' = ending := String.toList_inj.mp htoList
  obtain rfl : entry' = entry := h.sound.entry_eq hmem hx.mem
  obtain ⟨kind', huse'⟩ := exists_use_of_ending hending'
  obtain rfl : kind' = kind := (ending_eq_iff_kind_eq huse' huse).mp rfl
  rw [hx.counts.name] at hn
  -- the reference is a candidate for the field too, and lies in a winner
  have hc := use_of_mention h.nests hx.known hx.own huse' n hn
  obtain ⟨w, hw, hwithin⟩ := (laminar_allCandidates h.nests).exists_within hc
  obtain ⟨y, hy, own, ending'', hown, hfield, huse'', m, hm, hspan'⟩ :=
    mention_of_use h.nests (Candidate.mem_of_mem_arbitrate hw)
  rcases ownUsage?_defaults hown with ⟨rfl, _⟩ | ⟨hreserved, hname⟩
  · -- the winner is of a field that has a token
    have hused : ∃ hit ∈ hits Convention.defaults text fields, hit.field = y.2 :=
      ⟨w.value, by rw [hits_eq]; exact List.mem_map_of_mem hw, hfield⟩
    obtain ⟨token₁, entry₁, hy⟩ := h.entry y hy hown hused
    have hd := redirect_of_mention h.nests hy.mem (ending_of_use huse'') m (by rw [hm, hy.counts.name])
    obtain ⟨hwv, hpriority⟩ :=
      hlaminar.agree (laminar_allCandidates h.nests) hv hd hc hw ⟨hspan.symm, rfl⟩ ⟨hspan'.symm, rfl⟩ hwithin
    have hnames : m.name = n.name := Mention.name_eq_of_span (by rw [← hspan', hwv, hspan])
    rw [← hpriority] at hending'
    obtain ⟨hname, rfl⟩ := split_eq (ending_of_use huse'') hending' (by rw [← hm, ← hn, hnames])
    obtain ⟨rfl, _⟩ := h.owner_eq hy hx (String.toList_inj.mp hname)
    refine ⟨w, hw, ?_, hwv⟩
    rw [← hfield, ← (ending_eq_iff_kind_eq huse'' huse').mp rfl]
  · -- or of one under a reserved name, which no other name stands in
    obtain rfl : ending'' = "" := ending_of_reserved_use huse'' hreserved
    rw [hspan'] at hwithin
    exact (not_within_reserved hx.own hending hname hn (by simpa using hm) hwithin).elim

/-- An entry counts as many uses of a kind as there are references redirected to its token with that ending. -/
theorem count_eq (h : Traced registry fields text) (hmem : (token, entry) ∈ registry.byPlaceholder)
    (huse : Use Convention.defaults .direct ending priority kind) :
    entry.usages.count kind =
      (Candidate.arbitrate (registry.redirects text)).countP (fun v => v.value.2 == token.text ++ ending) := by
  obtain ⟨x, hx⟩ := h.field token entry hmem
  rw [hx.counts.count kind, hits_eq, List.countP_map]
  apply Candidate.countP_arbitrate_eq (laminar_allCandidates h.nests).spans (laminar_gather h.nests).spans
  intro span
  simp only [Function.comp_apply, Bool.and_eq_true, beq_iff_eq]
  constructor
  · intro hused
    obtain ⟨w, hw, ⟨hfield, hkind⟩, rfl⟩ := hused
    obtain ⟨v, hv, hvalue, hspan⟩ := h.redirected hx huse hw (by rw [← hfield, ← hkind])
    exact ⟨v, hv, hvalue, hspan⟩
  · intro hredirected
    obtain ⟨v, hv, hvalue, rfl⟩ := hredirected
    obtain ⟨w, hw, hvalue, hspan⟩ := h.used hx huse hv hvalue
    exact ⟨w, hw, by rw [hvalue]; exact ⟨rfl, rfl⟩, hspan⟩

end Traced

/-! ## References to tokens -/

/-- The references to a token with an ending are as many as those that were redirected to it. -/
theorem Tokenized.length_findReferences {suffixes : List String} {tail : List Char} {ps : List Passage}
    (h : Tokenized registry suffixes text ps tail) {token : Placeholder} {entry : TrackedEntry}
    (hmem : (token, entry) ∈ registry.byPlaceholder) {ending : String}
    (hending : ending.toList ∈ Convention.endings) :
    (findReferences (token.chars ++ ending.toList) (QuoteMap.lex (target tail ps)) (target tail ps)).length =
      (Candidate.arbitrate (gather (QuoteMap.lex text) text suffixes registry.renames)).countP
        (fun v => v.value.2 == token.text ++ ending) := by
  have hchars : token.chars ++ ending.toList = (token.text ++ ending).toList := by
    rw [String.toList_append, Placeholder.toList_text]
  calc (findReferences _ _ _).length
      = ps.countP (fun p => p.new == token.chars ++ ending.toList) := h.length_findReferences_eq_countP hmem hending
    _ = (located 0 ps).countP (fun x => x.2.new == token.chars ++ ending.toList) :=
        (countP_located 0 ps fun p => p.new == token.chars ++ ending.toList).symm
    _ = ((located 0 ps).map fun x => (x.1, x.2.new)).countP (fun y => y.2 == token.chars ++ ending.toList) := by
        rw [List.countP_map]
        rfl
    _ = (Candidate.arbitrate (gather (QuoteMap.lex text) text suffixes registry.renames)).countP
          (fun v => v.value.2 == token.text ++ ending) := by
        rw [h.located_eq, List.countP_map]
        apply List.countP_congr
        intro v _
        simp only [Function.comp_apply, hchars, beq_iff_eq, String.toList_inj]

/-- A text tokenized in remap mode refers to the token of an entry as often as the entry counts direct uses, and to
    the token with a suffix of the host as often as it counts uses of the suffix's kind. So the missing
    tokens are those of the entries that count no direct use, in order. -/
theorem tokenize_track (specText : String) (knownFields : List DatasetField) (previousTrackedFields : Registry)
    (hasDrilldown reset : Bool) (h : Context.outside.nests specText.toList = true)
    (hkeys : (knownFields.map (·.key)).Nodup) :
    let registry := (track { specText, knownFields, previousTrackedFields, hasDrilldown, reset }).trackedFields
    let tokenized := tokenize { specText, trackedFields := registry, isRemap := true }
    let references := fun name => findReferences name (QuoteMap.lex tokenized.toList) tokenized.toList
    (∀ entry ∈ registry.entries, ∀ token, entry.placeholder = some token →
      (references token.chars).length = entry.usages.count .direct ∧
      ∀ convention ∈ Convention.defaults, ∀ suffix kind, convention.suffix? = some suffix →
        convention.kind.usageKind? = some kind →
          (references (token.chars ++ suffix.toList)).length = entry.usages.count kind) ∧
    missingTokens tokenized registry =
      (registry.byPlaceholder.filter fun x => x.2.usages.count .direct == 0).map (·.1) ∧
    (missingTokens tokenized registry).Pairwise (fun a b => a.le b = true) := by
  intro registry tokenized references
  have hs : registry.Sound specText.toList := sound_track rfl h
  obtain ⟨ps, tail, hps, hout⟩ := exists_tokenized hs h true
  have hout : tokenized.toList = target tail ps := hout
  have hcount : ∀ token entry, (token, entry) ∈ registry.byPlaceholder → ∀ ending priority kind,
      Use Convention.defaults .direct ending priority kind →
        (references (token.chars ++ ending.toList)).length = entry.usages.count kind := by
    intro token entry hmem ending priority kind huse
    have htraced : Traced registry knownFields specText.toList := by
      rcases trackedFields_eq { specText, knownFields, previousTrackedFields, hasDrilldown, reset } with hempty | heq
      · -- nothing is tracked
        have hmem : entry ∈ registry.entries := (Registry.mem_byPlaceholder.mp hmem).1
        rw [show registry = .empty from hempty] at hmem
        cases hmem
      · rw [show registry = .ofEntries _ from heq]
        exact traced_ofEntries rfl h hkeys heq
    rw [htraced.count_eq hmem huse]
    simp only [references, hout]
    exact hps.length_findReferences hmem (use_defaults huse)
  have hdirect : ∀ x ∈ registry.byPlaceholder, (references x.1.chars).length = x.2.usages.count .direct := by
    intro x hx
    have := hcount x.1 x.2 hx "" _ _ .own
    rwa [String.toList_empty, List.append_nil] at this
  have hmissing : missingTokens tokenized registry =
      (registry.byPlaceholder.filter fun x => x.2.usages.count .direct == 0).map (·.1) := by
    rw [missingTokens, List.filter_map]
    congr 1
    apply List.filter_congr
    intro x hx
    rw [Bool.eq_iff_iff, Function.comp_apply, List.isEmpty_iff, beq_iff_eq, ← hdirect x hx, List.length_eq_zero_iff]
  refine ⟨fun entry hentry token htoken => ?_, hmissing, ?_⟩
  · have hmem := Registry.mem_byPlaceholder.mpr ⟨hentry, htoken⟩
    refine ⟨hdirect _ hmem, fun convention hconvention suffix kind hsuffix hkind => ?_⟩
    exact hcount token entry hmem suffix _ kind (.derived rfl hconvention hsuffix hkind)
  · rw [hmissing]
    exact List.pairwise_map.mpr ((Registry.pairwise_byPlaceholder registry).filter _)

/-- A measure, another field of its name, and a field named as a name derived from them. -/
theorem tokenize_track_sales :
    let specText := "[\"Sales\",\"datum.Sales__highlight + datum['Sales__highlightStatus']\",\"__0__\"]"
    let knownFields : List DatasetField := [⟨"a", "Sales", .numeric, .measure, false⟩,
      ⟨"b", "Sales", .text, .column, false⟩, ⟨"c", "Sales__highlight", .numeric, .measure, false⟩]
    let registry := (track { specText, knownFields }).trackedFields
    Context.outside.nests specText.toList = true ∧ (knownFields.map (·.key)).Nodup ∧
      missingTokens (tokenize { specText, trackedFields := registry, isRemap := true }) registry =
        (registry.byPlaceholder.filter fun x => x.2.usages.count .direct == 0).map (·.1) :=
  ⟨by decide, by decide, (tokenize_track _ _ .empty false false (by decide) (by decide)).2.1⟩

end FieldRemap
