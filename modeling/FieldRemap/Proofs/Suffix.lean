/-
  FieldRemap.Proofs.Suffix — names with a suffix, found by the name and found by the suffix.

  A derived name is a base and a suffix. The search for the name and the search for every name
  with the suffix read the same text with tests of their own: of an accessor the one asks for the
  characters of an identifier, the other for a letter and the characters of a word. No opener is
  among the characters of a derived name, so what a search for derived names passes over holds no
  other reference (`NamePattern.mem_searchFrom_of_match`). It finds what the search for the name
  finds, but for accessors whose base is an identifier and not made of those letters
  (`mem_search_derived_iff`), such as `CO₂` (`search_derived_subscript`).
-/

import FieldRemap.Proofs.Identifier
import FieldRemap.Proofs.Overlap

namespace FieldRemap

/-! ## What is written as it is -/

/-- A character that is no control character, quote, backslash, dot or square bracket. -/
def isPlainChar (c : Char) : Bool :=
  32 ≤ c.toNat && !(['"', '\'', '\\', '.', '[', ']'].contains c)

theorem ne_of_isPlainChar {c d : Char} (h : isPlainChar c = true) (hd : isPlainChar d = false) : c ≠ d := by
  rintro rfl
  rw [h] at hd
  cases hd

theorem isPlainChar_of_isTokenChar {c : Char} (h : isTokenChar c = true) : isPlainChar c = true := by
  have hne : ∀ d ∈ ['"', '\'', '\\', '.', '[', ']'], c ≠ d := fun d hd =>
    ne_of_isTokenChar h (forall_mem_of_all (p := fun d => isTokenChar d = false) (by decide) d hd)
  have hcontains : ['"', '\'', '\\', '.', '[', ']'].contains c = false :=
    Bool.eq_false_iff.mpr fun hmem => hne c (List.contains_iff_mem.mp hmem) rfl
  rw [isPlainChar, hcontains, decide_eq_true (toNat_of_isTokenChar h).1]
  rfl

/-- A name of plain characters is written as it is in every form. -/
theorem Form.write_of_isPlainChar (form : Form) {name : List Char} (h : ∀ c ∈ name, isPlainChar c = true) :
    form.write name = name := by
  have hencode : encodeName name = name := by
    rw [encodeName, List.flatMap_congr (g := fun c => [c]), List.flatMap_singleton']
    intro c hc
    have hplain := h c hc
    exact encodeChar_of_ge (ne_of_isPlainChar hplain (by decide)) (ne_of_isPlainChar hplain (by decide))
      (of_decide_eq_true (Bool.and_eq_true _ _ |>.mp hplain).1)
  have hescape : escapeSingle name = name := by
    rw [escapeSingle, List.flatMap_congr (g := fun c => [c]), List.flatMap_singleton']
    intro c hc
    have hplain := h c hc
    rw [escapeSingleChar, if_neg (ne_of_isPlainChar hplain (by decide)), if_neg (ne_of_isPlainChar hplain (by decide))]
  cases form <;> simp [write, hencode, hescape]

/-! ## Bases -/

def spellsBase (form : Form) (isFirst : Bool) : List Char → Bool
  | [] => true
  | c :: rest => isBaseChar form isFirst c && spellsBase form false rest

variable {form : Form} {isFirst : Bool} {suffix base rest text : List Char} {c : Char}

theorem spellsBase_cons : spellsBase form isFirst (c :: rest) = true ↔
    isBaseChar form isFirst c = true ∧ spellsBase form false rest = true := by
  rw [spellsBase, Bool.and_eq_true]

theorem isBaseChar_of_spellsBase (h : spellsBase form isFirst base = true) :
    ∀ c ∈ base, isBaseChar form true c = true ∨ isBaseChar form false c = true := by
  induction base generalizing isFirst with
  | nil => exact fun _ h => absurd h List.not_mem_nil
  | cons d base ih =>
    obtain ⟨hd, hbase⟩ := spellsBase_cons.mp h
    refine List.forall_mem_cons.mpr ⟨?_, ih hbase⟩
    cases isFirst with
    | true => exact .inl hd
    | false => exact .inr hd

theorem isBaseChar_of_spellsBase_false (h : spellsBase form false base = true) :
    ∀ c ∈ base, isBaseChar form false c = true := by
  induction base with
  | nil => exact fun _ h => absurd h List.not_mem_nil
  | cons d base ih =>
    obtain ⟨hd, hbase⟩ := spellsBase_cons.mp h
    exact List.forall_mem_cons.mpr ⟨hd, ih hbase⟩

/-- Of the identifiers those are bases of accessors that begin with a letter, an underscore or a dollar sign and hold
    no stray character. -/
theorem spellsBase_accessor_iff (h : isIdentifier (c :: base) = true) :
    spellsBase .accessor true (c :: base) = true ↔
      (isWordLetter c = true ∨ c = '_' ∨ c = '$') ∧ ∀ d ∈ base, isStray d = false := by
  have hstray : ∀ d ∈ base, isBaseChar .accessor false d = !isStray d := by
    intro d hd
    have hpart := Form.isIdentifierPart_of_mem h (List.mem_cons_of_mem c hd)
    rw [isStray, hpart, Bool.true_and, Bool.not_not]
    rfl
  have hbase : spellsBase .accessor false base = true ↔ ∀ d ∈ base, isStray d = false := by
    clear h
    induction base with
    | nil => simp [spellsBase]
    | cons d base ih =>
      obtain ⟨hd, hbase⟩ := List.forall_mem_cons.mp hstray
      rw [spellsBase_cons, ih hbase, List.forall_mem_cons, hd, Bool.not_eq_true']
  rw [spellsBase_cons, hbase]
  simp [isBaseChar, or_assoc]

/-- Any plain character may stand in a base that is not to be an accessor. -/
theorem isBaseChar_of_isPlainChar (hform : form ≠ .accessor) (h : isPlainChar c = true) :
    isBaseChar form isFirst c = true := by
  have hne {d : Char} (hd : isPlainChar d = false) : c ≠ d := ne_of_isPlainChar h hd
  cases form with
  | accessor => exact absurd rfl hform
  | string | escaped | single | bracket =>
    simp only [isBaseChar, Bool.not_eq_true', Bool.or_eq_false_iff, beq_eq_false_iff_ne]
    exact ⟨⟨⟨⟨⟨⟨⟨hne (by decide), hne (by decide)⟩, hne (by decide)⟩, hne (by decide)⟩, hne (by decide)⟩,
      hne (by decide)⟩, hne (by decide)⟩, hne (by decide)⟩

theorem isBaseChar_of_isTokenChar (form : Form) (h : isTokenChar c = true) : isBaseChar form false c = true := by
  by_cases hform : form = .accessor
  · subst hform
    simp [isBaseChar, isWord_of_isTokenChar h]
  · exact isBaseChar_of_isPlainChar hform (isPlainChar_of_isTokenChar h)

/-- A name of plain characters is a base, unless it is to be an accessor. -/
theorem spellsBase_of_isPlainChar (hform : form ≠ .accessor) (h : ∀ c ∈ base, isPlainChar c = true) :
    spellsBase form isFirst base = true := by
  induction base generalizing isFirst with
  | nil => rfl
  | cons c base ih =>
    obtain ⟨hc, hbase⟩ := List.forall_mem_cons.mp h
    exact spellsBase_cons.mpr ⟨isBaseChar_of_isPlainChar hform hc, ih hbase⟩

/-- No form opens with a character of a base. -/
theorem Form.opener_ne_cons {form' : Form} {opener : List Char} (form : Form)
    (h : isBaseChar form true c = true ∨ isBaseChar form false c = true) : form'.opener ≠ c :: opener := by
  intro ho
  have hspecial : ∀ d ∈ ['"', '\\', '\'', '[', '.'], isBaseChar form true d = false ∧ isBaseChar form false d = false :=
    forall_mem_of_all (by cases form <;> decide)
  have hmem : c ∈ ['"', '\\', '\'', '[', '.'] := by
    cases form' <;> (obtain ⟨rfl, -⟩ := List.cons.inj ho; decide)
  obtain ⟨htrue, hfalse⟩ := hspecial c hmem
  rw [htrue, hfalse] at h
  simp at h

/-- A name does not end before a character that may go on with a base. -/
theorem Form.not_closes_cons (h : isBaseChar form false c = true) : form.closes (c :: rest) = false := by
  cases form with
  | accessor =>
    have hword : (isWord c || c == '$') = true := h
    rw [closes, endsAccessor, hword]
    rfl
  | string | escaped | single | bracket =>
    simp only [isBaseChar, Bool.not_eq_true', Bool.or_eq_false_iff, beq_eq_false_iff_ne] at h
    simp only [closes, opener, List.isPrefixOf, Bool.and_eq_false_iff, beq_eq_false_iff_ne]
    exact .inl fun he => by simp [← he] at h

/-! ## Derived names -/

/-- What is read as a derived name is a base and the suffix, and is closed. -/
theorem of_derivedNameAt?_eq_some {read written : List Char}
    (h : derivedNameAt? form suffix read text = some written) : ∃ base rest, base ≠ [] ∧
      text = base ++ (suffix ++ rest) ∧ form.closes rest = true ∧ written = read.reverse ++ (base ++ suffix) ∧
      spellsBase form read.isEmpty base = true := by
  induction text generalizing read with
  | nil => cases h
  | cons c text ih =>
    unfold derivedNameAt? at h
    split at h
    · next hc =>
      split at h
      · next hany =>
        obtain ⟨rest, hrest, hcloses⟩ := Option.any_eq_true _ _ |>.mp hany
        obtain rfl := dropLeading_eq_some.mp hrest
        obtain rfl := Option.some.inj h
        exact ⟨[c], rest, List.cons_ne_nil _ _, rfl, hcloses, by simp, spellsBase_cons.mpr ⟨hc, rfl⟩⟩
      · obtain ⟨base, rest, -, rfl, hcloses, rfl, hspells⟩ := ih h
        exact ⟨c :: base, rest, List.cons_ne_nil _ _, rfl, hcloses, by simp, spellsBase_cons.mpr ⟨hc, hspells⟩⟩
    · cases h

/-- A base and a suffix that closes are read as such: before its end the name goes on as a base does, so no shorter
    one is closed. -/
theorem derivedNameAt?_append (hsuffix : ∀ c ∈ suffix, isBaseChar form false c = true)
    (hcloses : form.closes rest = true) {read : List Char} (hne : base ≠ [])
    (hspells : spellsBase form read.isEmpty base = true) :
    derivedNameAt? form suffix read (base ++ (suffix ++ rest)) = some (read.reverse ++ (base ++ suffix)) := by
  induction base generalizing read with
  | nil => exact absurd rfl hne
  | cons c base ih =>
    obtain ⟨hc, hbase⟩ := spellsBase_cons.mp hspells
    rw [List.cons_append, derivedNameAt?, if_pos hc]
    by_cases hend : base = []
    · subst hend
      rw [if_pos]
      · simp
      · rw [List.nil_append, dropLeading_eq_some.mpr rfl]
        exact hcloses
    · rw [if_neg, @ih (c :: read) hend hbase]
      · simp
      · intro hany
        obtain ⟨behind, hbehind, hclosed⟩ := Option.any_eq_true _ _ |>.mp hany
        have htext : base ++ suffix ++ rest = suffix ++ behind := by
          rw [List.append_assoc]
          exact dropLeading_eq_some.mp hbehind
        -- a shorter name would end before a character of the longer one
        have hlonger : suffix <+: base ++ suffix :=
          List.prefix_of_prefix_length_le (htext ▸ List.prefix_append _ _) (List.prefix_append _ rest) (by simp)
        obtain ⟨left, hleft⟩ := hlonger
        have hleftlen : left ≠ [] := by
          rintro rfl
          have hlength := congrArg List.length hleft
          have hpos := List.length_pos_of_ne_nil hend
          rw [List.append_nil, List.length_append] at hlength
          omega
        obtain ⟨d, left, rfl⟩ := List.exists_cons_of_ne_nil hleftlen
        rw [← hleft, List.append_assoc] at htext
        have hbehind : (d :: left) ++ rest = behind := List.append_cancel_left htext
        rw [← hbehind, List.cons_append, Form.not_closes_cons] at hclosed
        · cases hclosed
        · have hmem : d ∈ base ++ suffix := hleft ▸ by simp
          rcases List.mem_append.mp hmem with hmem | hmem
          · exact isBaseChar_of_spellsBase_false hbase d hmem
          · exact hsuffix d hmem

/-! ## Searches -/

namespace NamePattern

/-- What a search for derived names matches at a place. -/
theorem matchAt?_derived {behind written : List Char}
    (hmatch : (derived suffix).matchAt? behind = some (form, written)) : ∃ base rest, base ≠ [] ∧
      behind = form.opener ++ (written ++ rest) ∧ form.closes rest = true ∧ written = base ++ encodeName suffix ∧
      spellsBase form true base = true := by
  obtain ⟨⟨form', text⟩, hopen, hread⟩ := Option.bind_eq_some_iff.mp hmatch
  obtain ⟨written', hname, heq⟩ := Option.map_eq_some_iff.mp hread
  obtain ⟨rfl, rfl⟩ := Prod.mk.inj heq
  obtain ⟨base, rest, hne, rfl, hcloses, rfl, hspells⟩ := of_derivedNameAt?_eq_some hname
  refine ⟨base, rest, hne, ?_, hcloses, rfl, hspells⟩
  rw [Form.open?_eq_some.mp hopen]
  simp

end NamePattern

/-- What a search for derived names finds is a base with the suffix. -/
theorem exists_isFound_of_mem_search {r : Reference}
    (h : r ∈ (NamePattern.derived suffix).search (QuoteMap.lex text) text) : ∃ base before rest,
      IsFound text r before (base ++ encodeName suffix) rest ∧ spellsBase r.form true base = true := by
  obtain ⟨before, behind, written, htext, hmatch, hspan, hbounded⟩ :=
    @NamePattern.exists_match_of_mem_searchFrom _ [] text _ 0 r h
  obtain ⟨base, rest, -, rfl, hcloses, rfl, hspells⟩ := NamePattern.matchAt?_derived hmatch
  obtain ⟨rest, rfl, -⟩ := Form.closes_iff.mp hcloses
  exact ⟨base, before, rest, ⟨htext, hspan, hbounded⟩, hspells⟩

/-- No form opens with a character of a derived name. -/
theorem Form.opener_ne_cons_of_mem {form' : Form} {opener : List Char}
    (hsuffix : ∀ c ∈ suffix, isTokenChar c = true) (hspells : spellsBase form true base = true)
    (hc : c ∈ base ++ suffix) : form'.opener ≠ c :: opener := by
  refine opener_ne_cons form ?_
  rcases List.mem_append.mp hc with hc | hc
  · exact isBaseChar_of_spellsBase hspells c hc
  · exact .inr (isBaseChar_of_isTokenChar form (hsuffix c hc))

/-- Only an escaped quote is more than one character. -/
theorem Form.opener_eq_append {front back : List Char} (h : form.opener = front ++ c :: back) (hne : front ≠ []) :
    form = .escaped ∧ front = ['\\'] ∧ c = '"' := by
  obtain ⟨d, front, rfl⟩ := List.exists_cons_of_ne_nil hne
  have htail : form.opener.tail = front ++ c :: back := by rw [h, List.cons_append, List.tail_cons]
  cases form with
  | escaped =>
    obtain ⟨rfl, -⟩ := List.cons.inj h
    cases front with
    | nil =>
      obtain ⟨rfl, -⟩ := List.cons.inj htail
      exact ⟨rfl, rfl, rfl⟩
    | cons e front => exact absurd (List.cons.inj htail).2 (by simp)
  | string | single | bracket | accessor => exact absurd htail (by simp [opener])

/-- What a search for derived names passes over holds no place where another form opens: not in the name, and not
    between the backslash and the quote of an escaped opener. -/
theorem stop_le_of_match {before between behind written rest : List Char} {form' : Form}
    (hsuffix : ∀ c ∈ encodeName suffix, isTokenChar c = true) (hne : between ≠ [])
    (hmatch : (NamePattern.derived suffix).matchAt? (between ++ behind) = some (form', written))
    (hbounded' : form'.isBounded (QuoteMap.lex (before ++ (between ++ behind))) (byteLength before) = true)
    (hbehind : behind = form.opener ++ rest)
    (hbounded : form.isBounded (QuoteMap.lex (before ++ (between ++ behind))) (byteLength (before ++ between)) = true) :
    byteLength before + byteLength form'.opener + byteLength written ≤ byteLength (before ++ between) := by
  obtain ⟨base, rest', -, htext, -, rfl, hspells⟩ := NamePattern.matchAt?_derived hmatch
  obtain ⟨c, opener, hopener⟩ := List.exists_cons_of_ne_nil form.opener_ne_nil
  by_contra hlt
  have hlen : byteLength between ≤ byteLength (form'.opener ++ (base ++ encodeName suffix)) := by
    simp only [byteLength_append] at *
    omega
  have hprefix : form'.opener ++ (base ++ encodeName suffix) <+: between ++ behind :=
    ⟨rest', by rw [htext]; simp⟩
  obtain ⟨inner, hinner⟩ := prefix_of_byteLength_le (List.prefix_append between behind) hprefix hlen
  -- the other form opens with the first character behind the stretch between
  have hfirst : ∃ left, inner = c :: left := by
    have hfull : inner ++ rest' = behind := by
      rw [← List.append_assoc, ← hinner, List.append_assoc] at htext
      exact (List.append_cancel_left htext).symm
    rw [hbehind, hopener] at hfull
    cases inner with
    | nil =>
      have := congrArg byteLength hinner
      simp only [List.append_nil, byteLength_append] at this hlt
      omega
    | cons d left =>
      obtain ⟨rfl, -⟩ := List.cons.inj hfull
      exact ⟨left, rfl⟩
  obtain ⟨left, rfl⟩ := hfirst
  rcases List.append_eq_append_iff.mp hinner with ⟨inside, hopener', hleft⟩ | ⟨inside, hbetween, hname⟩
  · cases inside with
    | nil =>
      have hmem : c ∈ base ++ encodeName suffix := by
        rw [List.nil_append] at hleft
        exact hleft ▸ List.mem_cons_self
      exact Form.opener_ne_cons_of_mem hsuffix hspells hmem hopener
    | cons d inside =>
      obtain ⟨rfl, rfl, rfl⟩ := Form.opener_eq_append hopener' hne
      obtain ⟨rfl, -⟩ := List.cons.inj hleft
      have hform : form = .string := by cases form <;> first | rfl | cases hopener
      subst hform
      rw [hbehind] at hbounded' hbounded
      exact Form.not_isBounded_string hbounded' hbounded
  · have hmem : c ∈ base ++ encodeName suffix := hname ▸ List.mem_append_right _ List.mem_cons_self
    exact Form.opener_ne_cons_of_mem hsuffix hspells hmem hopener

/-! ## The two searches -/

section

variable {r : Reference} (hsuffix : ∀ c ∈ suffix, isTokenChar c = true) (hne : base ≠ [])
  (hr : r ∈ findReferences (base ++ suffix) (QuoteMap.lex text) text)
  (hwrite : r.form.write (base ++ suffix) = base ++ suffix)

include hsuffix hne hr hwrite in
/-- A reference to a derived name is found by its suffix where its base is one in the form. -/
theorem mem_search_of_spellsBase (hspells : spellsBase r.form true base = true) :
    r ∈ (NamePattern.derived suffix).search (QuoteMap.lex text) text := by
  obtain ⟨-, before, rest, ⟨htext, hspan, hbounded⟩, hends⟩ := exists_isFound_ends hr
  rw [hwrite] at htext hspan
  have hencode : encodeName suffix = suffix := encodeName_of_isTokenChar hsuffix
  have hcloses : r.form.closes (r.form.closer ++ rest) = true := Form.closes_iff.mpr ⟨rest, rfl, hends⟩
  have hread := @derivedNameAt?_append r.form suffix base _
    (fun c hc => isBaseChar_of_isTokenChar r.form (hsuffix c hc)) hcloses [] hne hspells
  have hmatch : (NamePattern.derived suffix).matchAt?
      (r.form.opener ++ ((base ++ suffix) ++ (r.form.closer ++ rest))) = some (r.form, base ++ suffix) := by
    rw [NamePattern.matchAt?, Form.open?_eq_some.mpr rfl, Option.bind_some]
    show (derivedNameAt? r.form (encodeName suffix) [] _).map _ = _
    rw [hencode, List.append_assoc, hread]
    rfl
  have hmem := @NamePattern.mem_searchFrom_of_match r.form (.derived suffix) (QuoteMap.lex text) [] before _ _ 0
    hmatch hbounded (Nat.zero_le _) fun front between form' written' hfront hbetween hm hb => by
      subst hfront
      rw [List.append_assoc] at htext
      rw [htext] at hbounded hb
      exact stop_le_of_match (hencode.symm ▸ hsuffix) hbetween hm hb rfl hbounded
  rw [List.nil_append, ← htext, ← hspan] at hmem
  exact hmem

include hr hwrite in
/-- A reference to a derived name that its suffix finds has a base of its form. -/
theorem spellsBase_of_mem_search (hencode : encodeName suffix = suffix)
    (hmem : r ∈ (NamePattern.derived suffix).search (QuoteMap.lex text) text) : spellsBase r.form true base = true := by
  obtain ⟨-, before, rest, hfound⟩ := exists_isFound hr
  obtain ⟨base', before', rest', hfound', hspells⟩ := exists_isFound_of_mem_search hmem
  rw [hwrite] at hfound
  rw [hencode] at hfound'
  obtain rfl : base = base' := List.append_cancel_right (hfound.unique hfound').2
  exact hspells

end

/-- Every reference to a name derived by a convention of the host is found by the pattern of the convention, in each
    form, but for an accessor to a base that the pattern does not take for one. -/
theorem mem_search_derived_iff {convention : Convention} {base name : String} {text : List Char} {r : Reference}
    (hconvention : convention ∈ Convention.defaults) (hname : convention.deriveName? base = some name)
    (hne : base ≠ "") (hplain : ∀ c ∈ base.toList, isPlainChar c = true)
    (hr : r ∈ findReferences name.toList (QuoteMap.lex text) text) :
    r ∈ convention.pattern.search (QuoteMap.lex text) text ↔
      (r.form = .accessor → spellsBase .accessor true base.toList = true) := by
  cases convention with
  | reserved => cases hname
  | derived suffix kind =>
    obtain rfl : base ++ suffix = name := Option.some.inj hname
    have hsuffix : ∀ c ∈ suffix.toList, isTokenChar c = true :=
      Convention.isTokenChar_of_mem_ending (List.mem_cons_of_mem _ (List.mem_map_of_mem
        (List.mem_filterMap.mpr ⟨_, hconvention, rfl⟩)))
    rw [String.toList_append] at hr
    have hwrite : r.form.write (base.toList ++ suffix.toList) = base.toList ++ suffix.toList :=
      Form.write_of_isPlainChar _ fun c hc => (List.mem_append.mp hc).elim (hplain c) fun hc =>
        isPlainChar_of_isTokenChar (hsuffix c hc)
    have hne : base.toList ≠ [] := fun h => hne (String.toList_eq_nil_iff.mp h)
    constructor
    · intro hmem hform
      have hspells := spellsBase_of_mem_search hr hwrite (encodeName_of_isTokenChar hsuffix) hmem
      rwa [hform] at hspells
    · intro haccessor
      refine mem_search_of_spellsBase hsuffix hne hr hwrite ?_
      by_cases hform : r.form = .accessor
      · rw [hform]
        exact haccessor hform
      · exact spellsBase_of_isPlainChar hform hplain

/-- An accessor and a quoted name, both with a suffix of the host. -/
theorem mem_search_derived_iff_sales :
    let text := "[\"datum.Sales__highlight + datum['Sales__highlight']\"]".toList
    let r : Reference := ⟨⟨8, 24⟩, .accessor⟩
    let convention : Convention := .derived "__highlight" .highlightValue
    convention ∈ Convention.defaults ∧ convention.deriveName? "Sales" = some "Sales__highlight" ∧
      r ∈ findReferences "Sales__highlight".toList (QuoteMap.lex text) text ∧
      (r ∈ convention.pattern.search (QuoteMap.lex text) text ↔
        (r.form = .accessor → spellsBase .accessor true "Sales".toList = true)) := by
  intro text r convention
  have hconvention : convention ∈ Convention.defaults := by decide
  have hr : r ∈ findReferences "Sales__highlight".toList (QuoteMap.lex text) text := by decide +kernel
  have hplain : ∀ c ∈ "Sales".toList, isPlainChar c = true := List.all_eq_true.mp (by decide)
  exact ⟨hconvention, rfl, hr, mem_search_derived_iff hconvention rfl (by decide) hplain hr⟩

/-- A base that ends in a subscript: its derived name is an identifier, and found as an accessor, but the suffix
    does not find it. -/
theorem search_derived_subscript :
    let text := "[\"datum.CO₂__highlight\"]".toList
    let convention : Convention := .derived "__highlight" .highlightValue
    convention ∈ Convention.defaults ∧ "CO₂".toList.all isPlainChar = true ∧
      convention.deriveName? "CO₂" = some "CO₂__highlight" ∧
      findReferences "CO₂__highlight".toList (QuoteMap.lex text) text = [⟨⟨8, 24⟩, .accessor⟩] ∧
      convention.pattern.search (QuoteMap.lex text) text = [] := by
  decide +kernel

end FieldRemap
