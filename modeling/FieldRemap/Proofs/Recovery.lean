/-
  FieldRemap.Proofs.Recovery — redirected references that are found again.

  A redirected reference is one to its new name when its form can hold the name, or when it
  stands in the code of an expression, where a bracket between single quotes takes the name
  (`Form.Takes`).

  Whatever the names are, they stay in their literals: behind them only the expression may be
  somewhere else than before (`Context.Alike`). So a redirected text is read like the one before
  outside every literal, and inside one up to a name that moves the expression
  (`Woven.read_target_eq`). A name without quotes and backslashes moves none
  (`Form.keeps_of_isBareKey`).

  A filled template refers to a supplied name at least as often as to its token before, when the
  name is taken where the token stands and no name before it in the same literal moves the
  expression (`length_findReferences_remap`). In an expression string no single quote opens a
  string: an accessor there whose new name is no identifier is lost (`findReferences_remap_quoted`).
-/

import FieldRemap.Proofs.Rewriting

namespace FieldRemap

open Passage Retarget

/-! ## Contexts that differ in the expression -/

/-- The contexts differ at most in where the expression of a double-quoted literal stands. -/
inductive Context.Alike : Context → Context → Prop
  | refl {context : Context} : Alike context context
  | literal {inner inner' : ExpressionContext} {escaped escaped' : Bool} :
      Alike (.literal inner escaped) (.literal inner' escaped')
  | backslash {inner inner' : ExpressionContext} {escaped escaped' : Bool} :
      Alike (.backslash inner escaped) (.backslash inner' escaped')

namespace Context.Alike

variable {a b : Context}

theorem inString_eq (h : Alike a b) : b.inString = a.inString := by
  cases h <;> rfl

/-- Outside every literal they do not differ. -/
theorem eq_of_not_inString (h : Alike a b) (ha : ¬ a.inString = true) : a = b := by
  cases h with
  | refl => rfl
  | literal | backslash => exact absurd rfl ha

theorem next (h : Alike a b) (c : Char) : Alike (a.next c) (b.next c) := by
  cases h with
  | refl => exact .refl
  | literal =>
    simp only [Context.next]
    by_cases hq : c = '"'
    · simp only [hq, if_true]
      exact .refl
    · by_cases hb : c = '\\'
      · subst hb
        simp only [hq, if_true, if_false]
        exact .backslash
      · simp only [hq, hb, if_false]
        split <;> split <;> exact .literal
  | @backslash inner inner' escaped escaped' =>
    obtain ⟨_, _, hnext⟩ := @Agrees.next_backslash c inner escaped
    obtain ⟨_, _, hnext'⟩ := @Agrees.next_backslash c inner' escaped'
    rw [hnext, hnext']
    exact .literal

theorem read (h : Alike a b) (text : List Char) : Alike (a.read text) (b.read text) := by
  induction text generalizing a b with
  | nil => exact h
  | cons c text ih => exact ih (h.next c)

theorem nests_eq (h : Alike a b) (text : List Char) : b.nests text = a.nests text := by
  induction text generalizing a b with
  | nil => rfl
  | cons c text ih =>
    have houtside : (b == .outside) = (a == .outside) := by cases h <;> rfl
    rw [Context.nests, Context.nests, ih (h.next c), houtside]

end Context.Alike

namespace Form

variable {form : Form} {context context' : Context} {name rest : List Char}

/-- A form can hold the name as it is, or, in the code of an expression, in a bracket between single quotes. -/
def Takes (form : Form) (context : Context) (name : List Char) : Prop :=
  form.admits name = true ∨ context.inner = .code

/-- Redirected to the name, a reference leaves the expression where any other name in its form does. -/
def Keeps (form : Form) (context : Context) (name : List Char) : Prop :=
  context.read (form.rewrap name) = form.leave context

theorem quotedKey_eq (name : List Char) : quotedKey name = wrap .single name := by
  have hquote : encodeName ['\''] = ['\''] := by decide
  show encodeName (['\''] ++ (escapeSingle name ++ ['\''])) = _
  rw [encodeName_append, encodeName_append, hquote]
  rfl

theorem rewrap_of_not_admits (h : ¬ form.admits name = true) :
    form.rewrap name = ['['] ++ (wrap .single name ++ [']']) := by
  rw [rewrap, if_neg h, quotedKey_eq]
  rfl

/-- A form that cannot hold every name opens inside a literal and keeps its expression where it is. -/
theorem of_not_admits (h : ¬ form.admits name = true) (hf : form.fits context = true) :
    context.inString = true ∧ form.leave context = .literal context.inner false := by
  cases form with
  | string | escaped | single => exact absurd rfl h
  | bracket | accessor => exact ⟨hf, rfl⟩

/-- A bracket is read past inside a literal. -/
theorem read_openBracket (h : context.inString = true) : context.read ['['] = .literal context.inner false :=
  next_delimiter h (by decide) (by decide) (by decide)

/-- Where a name is taken, it leaves the expression in place. -/
theorem Takes.keeps (h : form.Takes context name) (hf : form.fits context = true) : form.Keeps context name := by
  by_cases ha : form.admits name = true
  · rw [Keeps, rewrap, if_pos ha, read_wrap hf ha]
  · have hcode := h.resolve_left ha
    obtain ⟨hin, hleave⟩ := of_not_admits ha hf
    have hfits : fits .single (.literal .code false) = true := rfl
    rw [Keeps, rewrap_of_not_admits ha, Context.read_append, Context.read_append, read_openBracket hin, hcode,
      read_wrap hfits rfl, hleave, hcode]
    rfl

/-- So does a name without brackets, quotes and backslashes, wherever it is written: the quotes of its bracket
    undo each other. -/
theorem keeps_of_isBareKey (hname : isBareKey name = true) (hf : form.fits context = true) :
    form.Keeps context name := by
  by_cases ha : form.admits name = true
  · rw [Keeps, rewrap, if_pos ha, read_wrap hf ha]
  · obtain ⟨hin, hleave⟩ := of_not_admits ha hf
    have hplain : ∀ c ∈ name, escapeSingleChar c = [c] := by
      intro c hc
      have := isBareKey_iff.mp hname c hc
      simp only [List.mem_cons, List.not_mem_nil, or_false, not_or] at this
      simp [escapeSingleChar, this]
    have hescape : escapeSingle name = name := by
      rw [escapeSingle, List.flatMap_congr hplain]
      simp
    have hback (inner : ExpressionContext) : (Context.literal inner false).read (encodeName name) = .literal inner false :=
      (Steady.encodeName_of_isBareKey hname).back
    have hquote (inner : ExpressionContext) :
        (Context.literal inner false).read ['\''] = .literal (inner.afterPlain '\'') false := rfl
    have hwrap : wrap .single name = ['\''] ++ (encodeName name ++ ['\'']) := by
      rw [wrap, write, hescape]
      rfl
    rw [Keeps, rewrap_of_not_admits ha, hwrap]
    simp only [Context.read_append, read_openBracket hin, hquote, hback, hleave]
    cases context.inner <;> rfl

/-- A name stays in the literal it is written in, whatever expression stands there. -/
theorem read_rewrap_literal (hs : form ≠ .string) (name : List Char) (inner : ExpressionContext) (escaped : Bool) :
    (∃ inner' escaped', (Context.literal inner escaped).read (form.rewrap name) = .literal inner' escaped') ∧
      (Context.literal inner escaped).nests (form.rewrap name) = true := by
  obtain ⟨hnests, hagrees⟩ := (@Agrees.plain inner escaped).skim (skim_of_read (@read_rewrap_plain form name hs))
  refine ⟨?_, hnests⟩
  generalize (Context.literal inner escaped).read (form.rewrap name) = behind at hagrees
  cases hagrees
  exact ⟨_, _, rfl⟩

theorem exists_cons_rewrap (hform : form = .bracket ∨ form = .accessor) (name : List Char) :
    ∃ c rest, form.rewrap name = c :: rest ∧ c ≠ '"' ∧ c ≠ '\\' ∧ c ≠ '\'' := by
  by_cases ha : form.admits name = true
  · rw [rewrap, if_pos ha]
    rcases hform with rfl | rfl <;> exact ⟨_, _, rfl, by decide, by decide, by decide⟩
  · rw [rewrap_of_not_admits ha]
    exact ⟨_, _, rfl, by decide, by decide, by decide⟩

/-- So it does where a reference has been redirected before. -/
theorem read_rewrap_alike (hs : form ≠ .string) (h : Context.Alike context context') (hf : form.fits context = true)
    (name : List Char) : (∃ inner escaped, context'.read (form.rewrap name) = .literal inner escaped) ∧
      context'.nests (form.rewrap name) = true := by
  have bare (hform : form = .bracket ∨ form = .accessor) (hin : context.inString = true) :
      (∃ inner escaped, context'.read (form.rewrap name) = .literal inner escaped) ∧
        context'.nests (form.rewrap name) = true := by
    have hin' : context'.inString = true := h.inString_eq.trans hin
    obtain ⟨c, rest, hcons, hq, hb, hq'⟩ := exists_cons_rewrap hform name
    have hnext := next_delimiter hin' hq hb hq'
    have hliteral := read_rewrap_literal hs name context'.inner false
    have hfrom : (Context.literal context'.inner false).next c = .literal context'.inner false :=
      next_delimiter rfl hq hb hq'
    rw [hcons, Context.read_cons, hfrom, Context.nests_cons, hfrom] at hliteral
    rw [hcons, Context.read_cons, hnext, Context.nests_cons, hnext]
    exact ⟨hliteral.1, fun _ => hq', hliteral.2.2⟩
  cases form with
  | string => exact absurd rfl hs
  | escaped | single =>
    obtain rfl : context = .literal .code false := beq_iff_eq.mp hf
    cases h <;> exact read_rewrap_literal hs name _ _
  | bracket => exact bare (.inl rfl) hf
  | accessor => exact bare (.inr rfl) hf

theorem alike_rewrap (h : Context.Alike context context') (hf : form.fits context = true) (name : List Char) :
    (form.leave context).Alike (context'.read (form.rewrap name)) ∧ context'.nests (form.rewrap name) = true := by
  by_cases hs : form = .string
  · subst hs
    obtain rfl : context = .outside := beq_iff_eq.mp hf
    obtain rfl : Context.outside = context' := h.eq_of_not_inString (by decide)
    have hwrap : rewrap .string name = wrap .string name := if_pos rfl
    rw [hwrap, read_wrap hf rfl]
    exact ⟨.refl, Woven.nests_wrap hf rfl⟩
  · obtain ⟨⟨inner, escaped, hread⟩, hnests⟩ := read_rewrap_alike hs h hf name
    have hleave : ∃ inner', form.leave context = .literal inner' false := by
      cases form with
      | string => exact absurd rfl hs
      | escaped | single | bracket | accessor => exact ⟨_, rfl⟩
    obtain ⟨inner', hleave⟩ := hleave
    rw [hread, hleave]
    exact ⟨.literal, hnests⟩

end Form

namespace Mention

variable {context : Context} {text : List Char}

/-- The mention stands in a literal that goes on up to the other one. -/
def SharesLiteral (n m : Mention context text) : Prop :=
  ∃ between, m.before = n.before ++ between ∧
    (context.read n.before).Through (fun c => c.inString = true) between

/-- A redirected reference is a mention of its new name. -/
theorem exists_of_rewrap {form : Form} {lead name rest : List Char} (hf : form.fits (context.read lead) = true)
    (ht : form.Takes (context.read lead) name) (hne : name ≠ [])
    (hends : form = .accessor → Form.endsAccessor rest = true) :
    ∃ m : Mention context (lead ++ form.rewrap name ++ rest), m.name = name ∧
      m.first < byteLength (lead ++ form.rewrap name) := by
  by_cases ha : form.admits name = true
  · refine ⟨⟨lead, form, name, rest, by simp [Form.rewrap, ha], hf, ha, hends, hne⟩, rfl, ?_⟩
    have := byteLength_pos (form.wrap_ne_nil name)
    simp only [Mention.first, Form.rewrap, ha, if_true, byteLength_append]
    omega
  · have hcode := ht.resolve_left ha
    obtain ⟨hin, -⟩ := Form.of_not_admits ha hf
    have hsingle : Form.single ≠ .accessor := by decide
    refine ⟨⟨lead ++ ['['], .single, name, ']' :: rest, by simp [Form.rewrap_of_not_admits ha], ?_, rfl,
      fun hacc => absurd hacc hsingle, hne⟩, rfl, ?_⟩
    · rw [Context.read_append, Form.read_openBracket hin, hcode]
      rfl
    · have := byteLength_pos (Form.wrap_ne_nil .single name)
      simp only [Mention.first, Form.rewrap_of_not_admits ha, byteLength_append]
      omega

/-- Different mentions of a name are reported apart. -/
theorem first_eq_of_reference_eq {m n : Mention context text} (h : m.reference = n.reference) : m.first = n.first := by
  have hspan : m.reference.span = n.reference.span := by rw [h]
  rw [first, first, (eq_of_span_eq (congrArg Span.start hspan) (congrArg Span.stop hspan)).1]

/-- A name has at least as many references as there are mentions of it one behind the other. -/
theorem countP_le_length_findReferences {text : List Char} (hn : Context.outside.nests text = true)
    {ms : List (Mention .outside text)} (hms : ms.Pairwise (fun m n => m.first < n.first)) (name : List Char) :
    ms.countP (fun m => m.name == name) ≤ (findReferences name (QuoteMap.lex text) text).length := by
  have hnodup : ((ms.filter fun m => m.name == name).map Mention.reference).Nodup := by
    refine List.pairwise_map.mpr ((hms.filter _).imp fun hlt heq => ?_)
    have := first_eq_of_reference_eq heq
    omega
  have hsub : (ms.filter fun m => m.name == name).map Mention.reference ⊆
      findReferences name (QuoteMap.lex text) text := by
    intro r hr
    obtain ⟨m, hm, rfl⟩ := List.mem_map.mp hr
    exact (mem_findReferences hn).mpr ⟨m, beq_iff_eq.mp (List.mem_filter.mp hm).2, rfl⟩
  have hle := (List.subperm_of_subset hnodup hsub).length_le
  rwa [List.length_map, ← List.countP_eq_length_filter] at hle

end Mention

/-! ## A redirected text -/

namespace Passage

theorem target_cons_eq (tail : List Char) (p : Passage) (ps : List Passage) :
    target tail (p :: ps) = p.lead ++ p.form.rewrap p.new ++ target tail ps := by
  rw [target_cons, List.append_assoc]

theorem target_append (tail : List Char) (ps qs : List Passage) :
    target tail (ps ++ qs) = target [] ps ++ target tail qs := by
  induction ps with
  | nil => rfl
  | cons p ps ih => simp [ih]

/-- A redirected text ends an accessor where the text before did. -/
theorem endsAccessor_target {tail : List Char} {ps : List Passage} (h : Form.endsAccessor (source tail ps) = true) :
    Form.endsAccessor (target tail ps) = true := by
  cases ps with
  | nil => exact h
  | cons p ps =>
    rw [source_cons] at h
    rw [target_cons]
    cases hlead : p.lead with
    | cons c lead =>
      rw [hlead] at h
      exact h
    | nil =>
      -- every opener ends an accessor
      by_cases ha : p.form.admits p.new = true
      · rw [Form.rewrap, if_pos ha]
        cases p.form <;> rfl
      · rw [Form.rewrap_of_not_admits ha]
        rfl

end Passage

namespace Woven

variable {tail : List Char} {context context' : Context} {ps front back : List Passage} {p : Passage}

theorem nests_target (h : Woven tail context ps) (hcontext : context.Alike context') :
    context'.nests (target tail ps) = context.nests (source tail ps) := by
  induction h generalizing context' with
  | nil => exact hcontext.nests_eq tail
  | @cons context p ps hfits hadmits _ _ _ ih =>
    have hlead := hcontext.read p.lead
    obtain ⟨hleave, hrewrap⟩ := Form.alike_rewrap hlead hfits p.new
    have hwrap := nests_wrap hfits hadmits
    rw [Bool.eq_iff_iff]
    simp only [target_cons, source_cons, Context.nests_append, Form.read_wrap hfits hadmits, hcontext.nests_eq p.lead,
      hrewrap, hwrap, ih hleave]

/-- In front of each reference the redirected text is read like the one before, but for the expression. -/
theorem alike_target (h : Woven tail context (front ++ p :: back)) (hcontext : context.Alike context') :
    (context.read (source [] front ++ p.lead)).Alike (context'.read (target [] front ++ p.lead)) := by
  induction front generalizing context context' with
  | nil => exact hcontext.read p.lead
  | cons q front ih =>
    cases h with
    | cons hfits hadmits _ _ hrest =>
      have hleave := (Form.alike_rewrap (hcontext.read q.lead) hfits q.new).1
      have ih := ih hrest hleave
      rw [Context.read_append] at ih
      simp only [source_cons, target_cons, List.append_assoc, Context.read_append,
        Form.read_wrap hfits hadmits]
      simpa only [Context.read_append] using ih

/-- And it is read the same there, when the names before it in its literal leave the expression in place. -/
theorem read_target_eq (h : Woven tail context (front ++ p :: back))
    (hkeeps : ∀ init q rest, front = init ++ q :: rest →
      (context.read (source [] init ++ q.lead)).Through (fun c => c.inString = true)
        (q.form.wrap q.old ++ (source [] rest ++ p.lead)) →
      q.form.Keeps (context.read (source [] init ++ q.lead)) q.new) :
    context.read (target [] front ++ p.lead) = context.read (source [] front ++ p.lead) := by
  induction front using List.reverseRecOn generalizing p back with
  | nil => rfl
  | append_singleton init q ih =>
    rw [List.append_assoc, List.singleton_append] at h
    obtain ⟨n, hn⟩ := h.exists_mention
    have hfits := n.fits
    have hadmits := n.admits
    rw [hn.before, hn.form] at hfits
    rw [hn.form, hn.name] at hadmits
    have hsource : source [] (init ++ [q]) ++ p.lead = (source [] init ++ q.lead) ++ (q.form.wrap q.old ++ p.lead) := by
      simp [source_append]
    have htarget : target [] (init ++ [q]) ++ p.lead = (target [] init ++ q.lead) ++ (q.form.rewrap q.new ++ p.lead) := by
      simp [target_append]
    rw [hsource, htarget, Context.read_append, Context.read_append (a := source [] init ++ q.lead)]
    have halike := h.alike_target .refl
    by_cases hthrough : (context.read (source [] init ++ q.lead)).Through (fun c => c.inString = true)
        (q.form.wrap q.old ++ p.lead)
    · -- one literal: the name before keeps the expression, and so do those before that one
      have hsame := ih h fun init' r rest heq hr => by
        refine hkeeps init' r (rest ++ [q]) (by rw [heq]; simp) ?_
        have hq : ((context.read (source [] init' ++ r.lead)).read (r.form.wrap r.old ++ (source [] rest ++ q.lead))).Through
            (fun c => c.inString = true) (q.form.wrap q.old ++ p.lead) := by
          rw [heq] at hthrough
          simpa [source_append] using hthrough
        simpa [source_append] using hr.append hq
      have hkeep := hkeeps init q [] rfl (by simpa using hthrough)
      rw [hsame, Context.read_append, hkeep, ← Form.read_wrap hfits hadmits, ← Context.read_append]
    · -- behind the name before, the text is outside every literal, and from there on the contexts do not differ
      obtain ⟨hleave, -⟩ := Form.alike_rewrap halike hfits q.new
      have hout : ∃ lead rest, p.lead = lead ++ rest ∧
          ¬ ((q.form.leave (context.read (source [] init ++ q.lead))).read lead).inString = true := by
        by_cases hs : q.form = .string
        · exact ⟨[], p.lead, rfl, by rw [hs]; exact Bool.false_ne_true⟩
        · have hwrap := Form.through_wrap hs hfits hadmits
          by_contra hno
          refine hthrough (hwrap.append fun lead hlead => ?_)
          obtain ⟨rest, hrest⟩ := hlead
          by_contra hn
          rw [Form.read_wrap hfits hadmits] at hn
          exact hno ⟨lead, rest, hrest.symm, hn⟩
      obtain ⟨lead, rest, hlead, hn⟩ := hout
      have hsame := (hleave.read lead).eq_of_not_inString hn
      rw [hlead, ← List.append_assoc, ← List.append_assoc, Context.read_append, Context.read_append (b := rest),
        Context.read_append, Context.read_append (b := lead), Form.read_wrap hfits hadmits, hsame]

theorem exists_of_eq (h : Woven tail context ps) (heq : ps = front ++ p :: back) :
    ∃ m : Mention context (source tail ps), m.Of front p := by
  subst heq
  exact h.exists_mention

/-- The names before a reference, as mentions. -/
theorem read_target_eq_before (h : Woven tail context ps) (heq : ps = front ++ p :: back)
    {m : Mention context (source tail ps)} (hof : m.Of front p)
    (hkeeps : ∀ init q rest, ps = init ++ q :: rest → ∀ n : Mention context (source tail ps), n.Of init q →
      n.SharesLiteral m → n.form.Keeps (context.read n.before) q.new) :
    context.read (target [] front ++ p.lead) = context.read m.before := by
  have hwoven := h
  rw [heq] at hwoven
  rw [hwoven.read_target_eq, hof.before]
  rintro init q rest rfl hthrough
  have hinit : ps = init ++ q :: (rest ++ p :: back) := by simp [heq]
  obtain ⟨n, hn⟩ := h.exists_of_eq hinit
  have := hkeeps init q _ hinit n hn ⟨_, by simp [hof.before, hn.before, source_append], hn.before ▸ hthrough⟩
  rwa [hn.before, hn.form] at this

/-- In a redirected text each passage whose name is taken where it stands has a mention of that name, one behind
    the other. -/
theorem exists_mentions (h : Woven tail context ps) (context' : Context) (wanted : Passage → Bool)
    (hwanted : ∀ front p back, ps = front ++ p :: back → wanted p = true →
      p.new ≠ [] ∧ p.form.fits (context'.read (target [] front ++ p.lead)) = true ∧
        p.form.Takes (context'.read (target [] front ++ p.lead)) p.new) :
    ∃ ms : List (Mention context' (target tail ps)), ms.map (·.name) = (ps.filter wanted).map (·.new) ∧
      ms.Pairwise (fun m n => m.first < n.first) := by
  induction h generalizing context' with
  | nil => exact ⟨[], rfl, .nil⟩
  | @cons context p ps _ _ _ hends _ ih =>
    obtain ⟨ms, hnames, hpairwise⟩ := ih (context'.read (p.lead ++ p.form.rewrap p.new))
      fun front q back heq hq => by
        have := hwanted (p :: front) q back (by rw [heq, List.cons_append]) hq
        rwa [target_cons_eq, List.append_assoc, Context.read_append] at this
    have hbehind : (ms.map (Mention.prepend _)).Pairwise (fun m n => m.first < n.first) := by
      refine List.pairwise_map.mpr (hpairwise.imp fun hlt => ?_)
      rw [Mention.first_prepend, Mention.first_prepend]
      omega
    have hrest : (ms.map (Mention.prepend _)).map (·.name) = (ps.filter wanted).map (·.new) := by
      rw [List.map_map, ← hnames]
      rfl
    rw [target_cons_eq]
    by_cases hp : wanted p = true
    · have hhere : p.new ≠ [] ∧ p.form.fits (context'.read p.lead) = true ∧ p.form.Takes (context'.read p.lead) p.new :=
        hwanted [] p ps rfl hp
      obtain ⟨hne, hfits, htakes⟩ := hhere
      obtain ⟨m, hname, hfirst⟩ := Mention.exists_of_rewrap hfits htakes hne fun hacc => endsAccessor_target (hends hacc)
      refine ⟨m :: ms.map (Mention.prepend _), ?_, List.pairwise_cons.mpr ⟨fun n hn => ?_, hbehind⟩⟩
      · rw [List.map_cons, List.filter_cons_of_pos hp, List.map_cons, hname, hrest]
      · obtain ⟨n, _, rfl⟩ := List.mem_map.mp hn
        rw [Mention.first_prepend]
        omega
    · exact ⟨ms.map (Mention.prepend _), by rw [List.filter_cons_of_neg hp, hrest], hbehind⟩

end Woven

/-! ## A filled template -/

namespace Tokenized

variable {registry : Registry} {suffixes : List String} {text tail : List Char} {ps : List Passage}
  {supply : Placeholder × TrackedEntry → String} {next : Passage → List Char} {token : Placeholder}
  {entry : TrackedEntry}

/-- Each reference to a token is filled with the name supplied for it. -/
theorem new_eq_supply (h : Tokenized registry suffixes text ps tail)
    (hnext : ∀ p ∈ ps, Filled registry supply p.new (next p)) (hmem : (token, entry) ∈ registry.byPlaceholder)
    {p : Passage} (hp : p ∈ ps.map (refill next)) (hold : p.old = token.chars) :
    p.new = (supply (token, entry)).toList := by
  obtain ⟨q, hq, rfl⟩ := List.mem_map.mp hp
  have hfilled : Filled registry supply q.new ((supply (token, entry)).toList ++ []) :=
    ⟨token, entry, [], hmem, List.mem_cons_self, by rw [List.append_nil]; exact hold, rfl⟩
  exact ((hnext q hq).eq h.sound hfilled).trans (List.append_nil _)

/-- A text filled in full refers to the name supplied for a token as often as it referred to the token, or more
    often, when the name is taken wherever the token stands and the names before it are kept. -/
theorem length_findReferences_le (h : Tokenized registry suffixes text ps tail)
    (hnext : ∀ p ∈ ps, Filled registry supply p.new (next p)) (hmem : (token, entry) ∈ registry.byPlaceholder)
    (hne : supply (token, entry) ≠ "")
    (hmentions : ∀ m : Mention .outside (target tail ps), m.name = token.chars →
      m.form.Takes (Context.outside.read m.before) (supply (token, entry)).toList ∧
        ∀ x ∈ registry.byPlaceholder, ∀ ending ∈ Convention.endings, ∀ n : Mention .outside (target tail ps),
          n.name = x.1.chars ++ ending → n.SharesLiteral m →
            n.form.Keeps (Context.outside.read n.before) ((supply x).toList ++ ending)) :
    (findReferences token.chars (QuoteMap.lex (target tail ps)) (target tail ps)).length ≤
      (findReferences (supply (token, entry)).toList (QuoteMap.lex (target tail (ps.map (refill next))))
        (target tail (ps.map (refill next)))).length := by
  have hwoven := h.woven_tokens next
  have hnew {p : Passage} (hp : p ∈ ps.map (refill next)) (hold : p.old = token.chars) :=
    h.new_eq_supply hnext hmem hp hold
  have hn : Context.outside.nests (target tail (ps.map (refill next))) = true :=
    (hwoven.nests_target .refl).trans (h.nests_tokens next)
  rw [← h.source_tokens next] at hmentions
  obtain ⟨ms, hnames, hms⟩ := hwoven.exists_mentions .outside (fun p => p.old == token.chars)
    fun front p back heq hp => by
      have hp : p ∈ ps.map (refill next) ∧ p.old = token.chars :=
        ⟨heq ▸ List.mem_append_right front List.mem_cons_self, beq_iff_eq.mp hp⟩
      obtain ⟨m, hof⟩ := hwoven.exists_of_eq heq
      obtain ⟨htakes, hkeeps⟩ := hmentions m (hof.name.trans hp.2)
      rw [hwoven.read_target_eq_before heq hof fun init q rest hinit n hn hshares => ?_, ← hof.form, hnew hp.1 hp.2]
      · exact ⟨fun hnil => hne (String.toList_eq_nil_iff.mp hnil), m.fits, htakes⟩
      · have hq : q ∈ ps.map (refill next) := hinit ▸ List.mem_append_right init List.mem_cons_self
        obtain ⟨q', hq', rfl⟩ := List.mem_map.mp hq
        obtain ⟨token', entry', ending, hmem', hending, hold, hfilled⟩ := hnext q' hq'
        rw [show (refill next q').new = _ from hfilled]
        exact hkeeps _ hmem' ending hending n (hn.name.trans hold) hshares
  have hall : ∀ m ∈ ms, m.name = (supply (token, entry)).toList := by
    intro m hm
    obtain ⟨p, hp, hname⟩ := List.mem_map.mp (hnames ▸ List.mem_map_of_mem hm)
    obtain ⟨hp, hold⟩ := List.mem_filter.mp hp
    exact hname ▸ hnew hp (beq_iff_eq.mp hold)
  calc (findReferences token.chars (QuoteMap.lex (target tail ps)) (target tail ps)).length
      = ps.countP (fun p => p.new == token.chars) := by
        have hcount := h.length_findReferences_eq_countP hmem (List.mem_cons_self : [] ∈ Convention.endings)
        rwa [List.append_nil] at hcount
    _ = ((ps.map (refill next)).filter fun p => p.old == token.chars).length := by
        rw [← List.countP_eq_length_filter, List.countP_map]
        rfl
    _ = ms.length := by simpa only [List.length_map] using (congrArg List.length hnames).symm
    _ = ms.countP (fun m => m.name == (supply (token, entry)).toList) :=
        (List.countP_eq_length.mpr fun m hm => beq_iff_eq.mpr (hall m hm)).symm
    _ ≤ _ := Mention.countP_le_length_findReferences hn hms _

end Tokenized

/-- A template filled in full refers to a supplied name at least as often as it referred to the slot's token, when
    every reference to the token can hold the name or stands in expression code, and every reference to a token
    before it in the same literal, alone or with a suffix, is given a name that keeps the expression in place. -/
theorem length_findReferences_remap (specText : String) (knownFields : List DatasetField)
    (information : TemplateInformation) (objectKey objectName : Slot → String)
    (h : Context.outside.nests specText.toList = true) :
    let template := exportTemplate specText knownFields information
    let slots := template.usermeta.dataset.map fun slot => slot.assign (objectKey slot) (objectName slot)
    let remapped := remap { tokenizedSpecText := template.specText, remapFields := slots }
    ∀ slot ∈ template.usermeta.dataset, objectName slot ≠ "" →
    (∀ m : Mention .outside template.specText.toList, m.name = slot.key.toList →
      m.form.Takes (Context.outside.read m.before) (objectName slot).toList ∧
        ∀ other ∈ template.usermeta.dataset, ∀ ending ∈ Convention.endings,
          ∀ n : Mention .outside template.specText.toList, n.name = other.key.toList ++ ending → n.SharesLiteral m →
            n.form.Keeps (Context.outside.read n.before) ((objectName other).toList ++ ending)) →
    (findReferences slot.key.toList (QuoteMap.lex template.specText.toList) template.specText.toList).length ≤
      (findReferences (objectName slot).toList (QuoteMap.lex remapped.toList) remapped.toList).length := by
  intro template slots remapped slot hslot hname hmentions
  have hs : template.trackedFields.Sound specText.toList := sound_track rfl h
  obtain ⟨ps, tail, hps, hout⟩ := exists_tokenized hs h true
  have hout : template.specText.toList = target tail ps := hout
  obtain ⟨make, hmake, hkey⟩ := exists_buildSlots template.trackedFields knownFields
  have hmake : template.usermeta.dataset = template.trackedFields.byPlaceholder.map make := hmake
  obtain ⟨next, hnext⟩ := hps.exists_next fun x => objectName (make x)
  have htext : remapped.toList = target tail (ps.map (refill next)) := by
    have hslots : supplied slots = template.trackedFields.supplies fun x => objectName (make x) :=
      supplied_assign hmake hkey objectKey objectName
    rw [toList_remap, hout, hslots]
    exact hps.splice_supplies hnext
  rw [hmake] at hslot
  obtain ⟨⟨token, entry⟩, hmem, rfl⟩ := List.mem_map.mp hslot
  rw [hout] at hmentions ⊢
  rw [htext, hkey, Placeholder.toList_text]
  refine hps.length_findReferences_le hnext hmem hname fun m hm => ?_
  obtain ⟨htakes, hkeeps⟩ := hmentions m (by rw [hm, hkey, Placeholder.toList_text])
  exact ⟨htakes, fun x hx ending hending n hn => hkeeps (make x) (hmake ▸ List.mem_map_of_mem hx) ending hending n
    (by rw [hn, hkey, Placeholder.toList_text])⟩

open Track in
/-- The accessor in the string cannot hold its name, but the name keeps the string as it is; the one behind it
    stands in code again. -/
theorem length_findReferences_remap_sales :
    let knownFields : List DatasetField :=
      [⟨"c", "Cost", .numeric, .measure, false⟩, ⟨"k", "Sales", .numeric, .measure, false⟩]
    let template := exportTemplate "[\"'datum.Cost' + datum.Sales\"]" knownFields {}
    let slots := template.usermeta.dataset.map fun slot => slot.assign "p" ("Net " ++ slot.name)
    let remapped := remap { tokenizedSpecText := template.specText, remapFields := slots }
    template.specText = "[\"'datum.__0__' + datum.__1__\"]" ∧
      (findReferences "__1__".toList (QuoteMap.lex template.specText.toList) template.specText.toList).length ≤
        (findReferences "Net Sales".toList (QuoteMap.lex remapped.toList) remapped.toList).length := by
  intro knownFields template slots remapped
  let a : TrackedEntry := ⟨"c", "Cost", some (.ofIndex 0), 1, { direct := some 1 }⟩
  let b : TrackedEntry := ⟨"k", "Sales", some (.ofIndex 1), 1, { direct := some 1 }⟩
  have hentries : template.trackedFields.entries = [a, b] := by
    show (track (exportTracking _ knownFields)).trackedFields.entries = _
    rw [trackedFields_of_pairwise] <;> decide +kernel
  have htokens : template.trackedFields.byPlaceholder = [(.ofIndex 0, a), (.ofIndex 1, b)] := by
    rw [Registry.byPlaceholder_of_pairwise] <;> rw [hentries] <;> decide +kernel
  have htext : template.specText = "[\"'datum.__0__' + datum.__1__\"]" := by
    show String.ofList (splice _ (Retarget.edits (template.trackedFields.byPlaceholder.flatMap _))) = _
    rw [htokens, Retarget.edits, Candidate.arbitrate_of_pairwise] <;> decide +kernel
  have hdataset : template.usermeta.dataset =
      [Slot.new "__0__" "Cost" .numeric .measure, Slot.new "__1__" "Sales" .numeric .measure] := by
    show buildSlots template.trackedFields knownFields = _
    rw [buildSlots, htokens]
    decide +kernel
  have hsecond : Slot.new "__1__" "Sales" .numeric .measure ∈ template.usermeta.dataset := by
    rw [hdataset]
    exact List.mem_cons_of_mem _ List.mem_cons_self
  -- the one reference to the second token stands behind the string
  have hcode : ∀ text, text = "[\"'datum.__0__' + datum.__1__\"]".toList → ∀ m : Mention .outside text,
      m.name = "__1__".toList → (Context.outside.read m.before).inner = .code := by
    rintro text rfl m hm
    have hfind : findReferences "__1__".toList (QuoteMap.lex "[\"'datum.__0__' + datum.__1__\"]".toList)
        "[\"'datum.__0__' + datum.__1__\"]".toList = [⟨⟨24, 29⟩, .accessor⟩] := by decide +kernel
    have hfound := (mem_findReferences (by decide)).mpr ⟨m, hm, rfl⟩
    rw [hfind, List.mem_singleton] at hfound
    have hform : m.form = .accessor := congrArg Reference.form hfound
    have hstart : byteLength m.before + byteLength m.form.opener = 24 := congrArg (·.span.start) hfound
    rw [hform] at hstart
    have hlead : byteLength "[\"'datum.__0__' + datum".toList + byteLength Form.accessor.opener = 24 := by decide
    rw [eq_of_byteLength_eq m.before_isPrefix (by decide) (Nat.add_right_cancel (hstart.trans hlead.symm))]
    decide
  refine ⟨htext, length_findReferences_remap _ knownFields {} (fun _ => "p") (fun slot => "Net " ++ slot.name)
    (by decide) _ hsecond (by decide) fun m hm => ⟨.inr ?_, fun other hother ending hending n _ _ => ?_⟩⟩
  · exact hcode _ (congrArg String.toList htext) m hm
  · have hbare : ∀ slot ∈ template.usermeta.dataset, ∀ ending ∈ Convention.endings,
        isBareKey (("Net " ++ slot.name).toList ++ ending) = true := by
      rw [hdataset]
      decide +kernel
    exact Form.keeps_of_isBareKey (hbare other hother ending hending) n.fits

open Track in
/-- An accessor in an expression string, given a name that is no identifier: the quotes of the bracket close the
    string and open it again, and the name stands between them in code. -/
theorem findReferences_remap_quoted :
    let knownFields : List DatasetField := [⟨"k", "Sales", .numeric, .measure, false⟩]
    let template := exportTemplate "\x7b\"e\":\"'datum.Sales'\"\x7d" knownFields {}
    let slots := template.usermeta.dataset.map fun slot => slot.assign "p" ("Total " ++ slot.name)
    let remapped := remap { tokenizedSpecText := template.specText, remapFields := slots }
    template.specText = "\x7b\"e\":\"'datum.__0__'\"\x7d" ∧
      (findReferences "__0__".toList (QuoteMap.lex template.specText.toList) template.specText.toList).length = 1 ∧
      remapped = "\x7b\"e\":\"'datum['Total Sales']'\"\x7d" ∧
      findReferences "Total Sales".toList (QuoteMap.lex remapped.toList) remapped.toList = [] := by
  intro knownFields template slots remapped
  have hentries : template.trackedFields.entries = [⟨"k", "Sales", some (.ofIndex 0), 1, { direct := some 1 }⟩] := by
    show (track (exportTracking _ knownFields)).trackedFields.entries = _
    rw [trackedFields_of_pairwise] <;> decide +kernel
  have htokens : template.trackedFields.byPlaceholder =
      [(.ofIndex 0, ⟨"k", "Sales", some (.ofIndex 0), 1, { direct := some 1 }⟩)] := by
    rw [Registry.byPlaceholder_of_pairwise] <;> rw [hentries] <;> decide +kernel
  have htext : template.specText = "\x7b\"e\":\"'datum.__0__'\"\x7d" := by
    show String.ofList (splice _ (Retarget.edits (template.trackedFields.byPlaceholder.flatMap _))) = _
    rw [htokens, Retarget.edits, Candidate.arbitrate_of_pairwise] <;> decide +kernel
  have hslots : slots = [(Slot.new "__0__" "Sales" .numeric .measure).assign "p" "Total Sales"] := by
    show (buildSlots template.trackedFields knownFields).map _ = _
    rw [buildSlots, htokens]
    decide +kernel
  have hremapped : remapped = "\x7b\"e\":\"'datum['Total Sales']'\"\x7d" := by
    show remap { tokenizedSpecText := template.specText, remapFields := slots } = _
    rw [hslots, htext, remap, Remap.edits, Retarget.edits, Candidate.arbitrate_of_pairwise] <;> decide +kernel
  rw [hremapped, htext]
  decide +kernel

end FieldRemap
