/-
  FieldRemap.Proofs.Reading — how a reference is read.

  A reference is an opener, the name as its form writes it, and a closer (`Form.wrap`); only an
  accessor has no closer of its own. What a context is behind a reference does not depend
  on its name (`Form.read_wrap`).

  Inside a quoted reference the context stays in the literal or expression string it opened, and
  leaves it with the closer. So two references that open at one place are of one form, and of one
  name unless they are accessors (`Form.wrap_inj`), and a reference that opens inside another
  ends inside its name (`Form.wrap_nested`).
-/

import FieldRemap.Proofs.QuoteMap
import FieldRemap.Proofs.Spelling

namespace FieldRemap

/-- A text that goes on past one beginning with what does not hold all the way through another
    goes on past the other too. -/
theorem exists_append_of_through {P : Context → Prop} {context : Context} {a b r s : List Char}
    (ha : context.Through P a) (hb : ¬ P (context.read b)) (he : b ++ s = a ++ r) : ∃ z, z ≠
    [] ∧ b = a ++ z := by
  have hpa : a <+: b ++ s := he ▸ List.prefix_append a r
  rcases List.prefix_or_prefix_of_prefix (List.prefix_append b s) hpa with hba | ⟨z, rfl⟩
  · exact absurd (ha b hba) hb
  · refine ⟨z, ?_, rfl⟩
    intro heq
    subst heq
    exact hb (by simpa using ha.read)

namespace Form

def closer : Form → List Char
  | .bracket => [']']
  | .accessor => []
  | form => form.opener

def wrap (form : Form) (name : List Char) : List Char :=
  form.opener ++ (form.write name ++ form.closer)

theorem opener_ne_nil (form : Form) : form.opener ≠ [] := by
  cases form <;> exact List.cons_ne_nil _ _

theorem wrap_ne_nil (form : Form) (name : List Char) : form.wrap name ≠ [] := by
  simp [wrap, opener_ne_nil]

theorem closes_iff {form : Form} {text : List Char} : form.closes text = true ↔
    ∃ rest, text = form.closer ++ rest ∧ (form = .accessor → endsAccessor rest = true) := by
  have quoted {a : List Char} : a.isPrefixOf text = true ↔ ∃ rest, text = a ++ rest := by
    rw [List.isPrefixOf_iff_prefix]
    exact ⟨fun ⟨rest, h⟩ => ⟨rest, h.symm⟩, fun ⟨rest, h⟩ => ⟨rest, h.symm⟩⟩
  cases form with
  | accessor => simp [closes, closer]
  | bracket => simpa [closes, closer] using @quoted [']']
  | string => simpa [closes, closer] using @quoted (opener .string)
  | escaped => simpa [closes, closer] using @quoted (opener .escaped)
  | single => simpa [closes, closer] using @quoted (opener .single)

/-! ## Characters -/

theorem ne_of_mem_bareKey {name : List Char} {c y : Char} (h : isBareKey name = true) (hc : c ∈ encodeName name)
    (hy : y = '[' ∨ y = ']' ∨ y = '\'' ∨ y = '"') : c ≠ y := by
  intro heq
  subst heq
  obtain ⟨d, hd, hcd⟩ := List.mem_flatMap.mp hc
  have hd := isBareKey_iff.mp h d hd
  simp only [List.mem_cons, List.not_mem_nil, or_false, not_or] at hd
  obtain ⟨h1, h2, h3, h4, h5⟩ := hd
  have he := encoded_encodeChar d
  generalize encodeChar d = u at he hcd
  cases he with
  | plain _ _ =>
    rw [List.mem_singleton] at hcd
    subst hcd
    rcases hy with h | h | h | h <;> contradiction
  | pair hd => rcases hd with h | h <;> contradiction
  | control k rest _ hk =>
    rcases List.mem_cons.mp hcd with rfl | hcd
    · rcases hy with h | h | h | h <;> cases h
    · have := hk c hcd
      rcases hy with rfl | rfl | rfl | rfl <;> cases this

theorem isIdentifierPart_of_mem {name : List Char} {c : Char} (h : isIdentifier name = true) (hc : c ∈ name) :
    isIdentifierPart c = true := by
  cases name with
  | nil => cases hc
  | cons d name =>
    simp only [isIdentifier, Bool.and_eq_true, List.all_eq_true] at h
    rcases List.mem_cons.mp hc with rfl | hc
    · simp [isIdentifierPart, h.1]
    · exact h.2 c hc

theorem ne_of_isIdentifierPart {c y : Char} (hc : isIdentifierPart c = true) (hy : isIdentifierPart y = false) :
    c ≠ y := by
  intro he
  subst he
  rw [hc] at hy
  cases hy

/-! ## Contexts -/

def inside (form : Form) (context : Context) : ExpressionContext :=
  match form with
  | .string => .code
  | .escaped => .doubleQuoted
  | .single => .singleQuoted
  | .bracket | .accessor => context.inner

def leave (form : Form) (context : Context) : Context :=
  match form with
  | .string => .outside
  | .escaped | .single => .literal .code false
  | .bracket | .accessor => .literal context.inner false

theorem read_opener {form : Form} {context : Context} (h : form.fits context = true) :
    context.read form.opener = .literal (form.inside context) false := by
  cases form with
  | string | escaped | single => rw [beq_iff_eq.mp h]; rfl
  | bracket | accessor => exact next_delimiter h (by decide) (by decide) (by decide)

/-- A name is read in one expression context, unless its form is a JSON string. -/
theorem steady_write {form : Form} {context : Context} {name : List Char} (hs : form ≠ .string)
    (ha : form.admits name = true) : Steady (form.inside context) (form.write name) := by
  cases form with
  | string => exact absurd rfl hs
  | escaped => exact Steady.encodeName_twice name
  | single => exact Steady.encodeName_escapeSingle name
  | bracket => exact Steady.encodeName_of_isBareKey ha
  | accessor =>
    have part {c y : Char} (hc : c ∈ name) (hy : isIdentifierPart y = false) : c ≠ y :=
      ne_of_isIdentifierPart (isIdentifierPart_of_mem ha hc) hy
    have : Steady (inside .accessor context) (name.flatMap ([·])) := Steady.flatMap fun c hc =>
      Steady.singleton (part hc (by decide)) (part hc (by decide)) fun h => absurd h (part hc (by decide))
    simpa [write] using this

/-- A quote in a name is written behind a backslash. -/
theorem exists_backslash_of_quote {name a b : List Char} (h : encodeName name = a ++ '"' :: b) :
    ∃ front, a = front ++ ['\\'] := by
  -- in a string the quote closes nothing
  obtain ⟨hthrough, -⟩ := through_encodeName .code false name
  have hquote := hthrough (a ++ ['"']) ⟨b, by simp [h]⟩
  have hbefore := hthrough a ⟨'"' :: b, h.symm⟩
  rw [Context.read_append] at hquote
  generalize hcontext : (Context.literal .code false).read a = context at hquote hbefore
  cases context with
  | outside | single | singleBackslash => cases hbefore
  | literal => cases hquote
  | backslash inner escaped =>
    rcases List.eq_nil_or_concat a with rfl | ⟨front, c, rfl⟩
    · cases hcontext
    · rw [List.concat_eq_append, Context.read_append] at hcontext
      obtain ⟨rfl, -⟩ := next_eq_backslash.mp hcontext
      exact ⟨front, List.concat_eq_append⟩

/-- What a form keeps of the context from its opener to its closer. -/
def Holds (form : Form) (context : Context) : Prop :=
  match form with
  | .string => context.inString = true
  | .escaped => Within .doubleQuoted context
  | .single => Within .singleQuoted context
  | .bracket | .accessor => True

theorem read_wrap {form : Form} {context : Context} {name : List Char} (hf : form.fits context = true)
    (ha : form.admits name = true) : context.read (form.wrap name) = form.leave context := by
  rw [wrap, Context.read_append, Context.read_append, read_opener hf]
  by_cases hs : form = .string
  · subst hs
    obtain ⟨_, inner, escaped, hr⟩ := through_encodeName (inside .string context) false name
    simp only [write, hr]
    rfl
  · rw [(steady_write hs ha).back]
    cases form with
    | string => exact absurd rfl hs
    | escaped | single => rfl
    | bracket => exact @next_delimiter (.literal context.inner false) ']' rfl (by decide) (by decide) (by decide)
    | accessor => rfl

/-- A form other than a JSON string is read inside a literal. -/
theorem through_wrap {form : Form} {context : Context} {name : List Char} (hs : form ≠ .string)
    (hf : form.fits context = true) (ha : form.admits name = true) :
    context.Through (fun c => c.inString = true) (form.wrap name) := by
  have hwrite := ((@steady_write form context name hs ha).within).mono fun _ h => h.1
  have hopener : context.Through (fun c => c.inString = true) form.opener := by
    have hr := read_opener hf
    cases form with
    | string => exact absurd rfl hs
    | escaped | single =>
      rw [beq_iff_eq.mp hf]
      simp only [opener, Context.through_cons, Context.through_nil]
      decide
    | bracket | accessor =>
      refine Context.through_cons.mpr ⟨hf, Context.through_nil.mpr ?_⟩
      rw [show context.next _ = _ from hr]
      rfl
  refine hopener.append ?_
  rw [read_opener hf]
  refine hwrite.append ?_
  rw [(steady_write hs ha).back]
  cases form with
  | string => exact absurd rfl hs
  | escaped | single =>
    simp only [closer, opener, inside, Context.through_cons, Context.through_nil]
    decide
  | bracket =>
    refine Context.through_cons.mpr ⟨rfl, Context.through_nil.mpr ?_⟩
    rw [next_delimiter rfl (by decide) (by decide) (by decide)]
    rfl
  | accessor => exact Context.through_nil.mpr rfl

/-- A bare bracket or an accessor keeps the expression where it is. -/
theorem within_wrap {form : Form} {context : Context} {name : List Char}
    (hs : form = .bracket ∨ form = .accessor)
    (hf : form.fits context = true) (ha : form.admits name = true) :
    context.Through (Within context.inner) (form.wrap name) := by
  have hs' : form ≠ .string := by intro he; subst he; simp at hs
  have hin : form.inside context = context.inner := by rcases hs with rfl | rfl <;> rfl
  have hc : context.inString = true := by rcases hs with rfl | rfl <;> exact hf
  have hwrite := (@steady_write form context name hs' ha)
  have hr := read_opener hf
  rw [hin] at hwrite hr
  have hopener : context.Through (Within context.inner) form.opener := by
    rcases hs with rfl | rfl <;>
    · refine Context.through_cons.mpr ⟨⟨hc, rfl⟩, Context.through_nil.mpr ?_⟩
      rw [show context.next _ = _ from hr]
      exact ⟨rfl, rfl⟩
  refine hopener.append ?_
  rw [hr]
  refine hwrite.within.append ?_
  rw [hwrite.back]
  rcases hs with rfl | rfl
  · refine Context.through_cons.mpr ⟨⟨rfl, rfl⟩, Context.through_nil.mpr ?_⟩
    rw [next_delimiter rfl (by decide) (by decide) (by decide)]
    exact ⟨rfl, rfl⟩
  · exact Context.through_nil.mpr ⟨rfl, rfl⟩

/-! ## References in one text -/

/-- Up to its closer's last character a quoted reference holds its context. -/
theorem holds_of_isPrefix {form : Form} {context : Context} {name front : List Char}
    (hf : form.fits context = true) (ha : form.admits name = true)
    (hp : front <+: form.write name ++ form.closer)
    (hne : front ≠ form.write name ++ form.closer) :
    form.Holds ((Context.literal (form.inside context) false).read front) := by
  -- a proper beginning stops before the last character
  have shorter {w : List Char} {c : Char} (hp : front <+: w ++ [c]) (hne : front ≠ w ++ [c]) : front <+: w := by
    rcases List.prefix_concat_iff.mp (by simpa using hp) with h | h
    · exact absurd (by simpa using h) hne
    · exact h
  cases form with
  | string => exact (through_encodeName _ _ name).1 front (shorter hp hne)
  | escaped =>
    have hw : Steady .doubleQuoted (encodeName (encodeName name)) := Steady.encodeName_twice name
    have hslash : (Context.literal .doubleQuoted false).Through (Within .doubleQuoted)
        (encodeName (encodeName name) ++ ['\\']) := by
      refine hw.within.append ?_
      rw [hw.back]
      simp only [Context.through_cons, Context.through_nil, Within]
      decide
    have hp : front <+: (encodeName (encodeName name) ++ ['\\']) ++ ['"'] := by simpa [write, closer, opener] using hp
    exact hslash front (shorter hp (by simpa [write, closer, opener] using hne))
  | single => exact (Steady.encodeName_escapeSingle name).within front (shorter hp hne)
  | bracket | accessor => trivial

theorem not_holds_leave {form : Form} {context : Context} (hb : form ≠ .bracket) (ha : form ≠ .accessor) :
    ¬ form.Holds (form.leave context) := by
  cases form with
  | string => exact fun h => by cases h
  | escaped | single => exact fun h => by cases h.2
  | bracket => exact absurd rfl hb
  | accessor => exact absurd rfl ha

/-- References that open at one place are of one form, and of one name unless they are accessors. -/
theorem wrap_inj {form form' : Form} {context : Context} {name name' rest rest' : List Char}
    (hf : form.fits context = true) (ha : form.admits name = true) (ha' : form'.admits name' = true)
    (he : form.wrap name ++ rest = form'.wrap name' ++ rest') :
    form = form' ∧ (form ≠ .accessor → name = name') := by
  have hform : form = form' := by
    cases form <;> cases form' <;> first | rfl | simp [wrap, opener] at he
  subst hform
  refine ⟨rfl, fun hacc => ?_⟩
  suffices hbody : form.write name ++ form.closer = form.write name' ++ form.closer from
    write_inj (List.append_cancel_right hbody)
  have he : (form.write name ++ form.closer) ++ rest = (form.write name' ++ form.closer) ++ rest' := by
    simpa [wrap] using he
  by_cases hb : form = .bracket
  · -- the closing bracket is the first one
    subst hb
    have stops {n : List Char} (hn : admits .bracket n = true) (r : List Char) :
        (encodeName n ++ [']'] ++ r).takeWhile (· != ']') = encodeName n := by
      have hall : ∀ c ∈ encodeName n, (c != ']') = true := fun c hc =>
        bne_iff_ne.mpr (ne_of_mem_bareKey hn hc (.inr (.inl rfl)))
      rw [List.append_assoc, List.takeWhile_append_of_pos hall]
      simp
    have := congrArg (List.takeWhile (· != ']')) he
    simp only [write, closer] at this ⊢
    rw [stops ha, stops ha'] at this
    rw [this]
  · have hend (n : List Char) (hn : form.admits n = true) :
        ¬ form.Holds ((Context.literal (form.inside context) false).read (form.write n ++ form.closer)) := by
      have := read_wrap hf hn
      rw [wrap, Context.read_append, read_opener hf] at this
      rw [this]
      exact not_holds_leave hb hacc
    rcases List.prefix_or_prefix_of_prefix (List.prefix_append _ rest) (he ▸ List.prefix_append _ rest') with hp | hp
    · by_cases heq : form.write name ++ form.closer = form.write name' ++ form.closer
      · exact heq
      · exact absurd (holds_of_isPrefix hf ha' hp heq) (hend name ha)
    · by_cases heq : form.write name' ++ form.closer = form.write name ++ form.closer
      · exact heq.symm
      · exact absurd (holds_of_isPrefix hf ha hp heq) (hend name' ha')

/-- The forms that open where a quoted form holds: a JSON string takes every other form, an expression
    string only bare brackets and accessors. -/
theorem form_of_holds {form form' : Form} {context : Context} (hb : form ≠ .bracket) (hacc : form ≠ .accessor)
    (h : form.Holds context) (hf' : form'.fits context = true) :
    form' = .bracket ∨ form' = .accessor ∨ (form = .string ∧ form' ≠ .string) := by
  cases form with
  | bracket => exact absurd rfl hb
  | accessor => exact absurd rfl hacc
  | string =>
    refine .inr (.inr ⟨rfl, ?_⟩)
    intro he
    subst he
    exact Context.ne_outside_of_inString h (beq_iff_eq.mp hf')
  | escaped | single =>
    obtain ⟨hin, hi⟩ := h
    cases form' with
    | string => rw [beq_iff_eq.mp hf'] at hin; cases hin
    | escaped | single => rw [beq_iff_eq.mp hf'] at hi; cases hi
    | bracket => exact .inl rfl
    | accessor => exact .inr (.inl rfl)

/-- Up to its end a reference that opens where a quoted form holds is held by that form. -/
theorem holds_wrap {form form' : Form} {context : Context} {name' : List Char} (hb : form ≠ .bracket)
    (hacc : form ≠ .accessor) (h : form.Holds context) (hf' : form'.fits context = true)
    (ha' : form'.admits name' = true) : context.Through form.Holds (form'.wrap name') := by
  have hform := form_of_holds hb hacc h hf'
  cases form with
  | bracket => exact absurd rfl hb
  | accessor => exact absurd rfl hacc
  | string =>
    refine through_wrap ?_ hf' ha'
    intro he
    subst he
    simp at hform
  | escaped | single =>
    obtain ⟨_, hi⟩ := h
    have hw : context.Through (Within context.inner) (form'.wrap name') :=
      within_wrap (by simpa using hform) hf' ha'
    rw [hi] at hw
    exact hw

/-- A reference that opens before a quoted one has closed closes before it. -/
theorem exists_append_of_quoted {form form' : Form} {context : Context} {name name' d y rest rest' : List Char}
    (hb : form ≠ .bracket) (hacc : form ≠ .accessor) (hf : form.fits context = true)
    (ha : form.admits name = true)
    (hf' : form'.fits ((Context.literal (form.inside context) false).read d) = true)
    (ha' : form'.admits name' = true)
    (hbody : form.write name ++ form.closer = d ++ y) (hy : y ≠ [])
    (he : y ++ rest = form'.wrap name' ++ rest') :
    (form' = .bracket ∨ form' = .accessor ∨ (form = .string ∧ form' ≠ .string)) ∧
      ∃ z, z ≠ [] ∧ y = form'.wrap name' ++ z := by
  have hholds : form.Holds ((Context.literal (form.inside context) false).read d) := by
    refine holds_of_isPrefix hf ha (hbody ▸ List.prefix_append d y) fun h => hy ?_
    rw [hbody] at h
    simpa using h
  have hend : ¬ form.Holds (((Context.literal (form.inside context) false).read d).read y) := by
    have := read_wrap hf ha
    rw [wrap, Context.read_append, read_opener hf, hbody, Context.read_append] at this
    rw [this]
    exact not_holds_leave hb hacc
  exact ⟨form_of_holds hb hacc hholds hf',
    exists_append_of_through (holds_wrap hb hacc hholds hf' ha') hend he⟩

/-- What opens inside a bare bracket is an accessor, and it closes before the bracket does. -/
theorem exists_append_of_bracket {form : Form} {name name' d y rest rest' : List Char}
    (ha : isBareKey name = true) (ha' : form.admits name' = true) (hbody : encodeName name ++ [']'] = d ++ y)
    (hy : y ≠ []) (he : y ++ rest = form.wrap name' ++ rest') :
    form = .accessor ∧ ∃ z, z ≠ [] ∧ y = form.wrap name' ++ z := by
  have hlast : ']' ∈ y := by
    obtain ⟨y', rfl, _⟩ := prefix_of_concat_eq hy hbody
    simp
  have hchar : ∀ c ∈ y, c ≠ '[' ∧ c ≠ '\'' ∧ c ≠ '"' := by
    intro c hc
    have : c ∈ encodeName name ++ [']'] := hbody ▸ List.mem_append_right d hc
    rcases List.mem_append.mp this with hm | hm
    · exact ⟨ne_of_mem_bareKey ha hm (by simp), ne_of_mem_bareKey ha hm (by simp), ne_of_mem_bareKey ha hm (by simp)⟩
    · rw [List.mem_singleton.mp hm]
      decide
  obtain ⟨c, t, rfl⟩ := List.exists_cons_of_ne_nil hy
  have hc := hchar c List.mem_cons_self
  cases form with
  | string => exact absurd (List.cons.inj he).1 hc.2.2
  | single => exact absurd (List.cons.inj he).1 hc.2.1
  | bracket => exact absurd (List.cons.inj he).1 hc.1
  | escaped =>
    obtain ⟨rfl, htail⟩ := List.cons.inj he
    cases t with
    | nil => exact absurd hlast (by decide)
    | cons e t => exact absurd (List.cons.inj htail).1 (hchar e (by simp)).2.2
  | accessor =>
    have hnot : ']' ∉ wrap .accessor name' := by
      intro hm
      have hm : ']' ∈ '.' :: name' := by simpa [wrap, opener, write, closer] using hm
      rcases List.mem_cons.mp hm with h | h
      · cases h
      · have hpart := isIdentifierPart_of_mem ha' h
        exact absurd rfl (ne_of_isIdentifierPart hpart (by decide : isIdentifierPart ']' = false))
    refine ⟨rfl, ?_⟩
    have hprefix := List.prefix_or_prefix_of_prefix (List.prefix_append _ rest) (he ▸ List.prefix_append _ rest')
    rcases hprefix with hp | ⟨z, hz⟩
    · exact absurd (hp.mem hlast) hnot
    · refine ⟨z, ?_, hz.symm⟩
      intro heq
      subst heq
      rw [← hz, List.append_nil] at hlast
      exact hnot hlast

/-- No form opens inside the name of an accessor. -/
theorem not_opener_of_identifier {form : Form} {name name' d y rest rest' : List Char}
    (ha : isIdentifier name = true)
    (hbody : name = d ++ y) (hy : y ≠ []) : y ++ rest ≠ form.wrap name' ++ rest' := by
  intro he
  obtain ⟨c, t, rfl⟩ := List.exists_cons_of_ne_nil hy
  have hc := isIdentifierPart_of_mem ha (hbody ▸ List.mem_append_right d List.mem_cons_self : c ∈ name)
  have hno : ∀ e ∈ ['"', '\\', '\'', '[', '.'], isIdentifierPart e = false := forall_mem_of_all (by decide)
  cases form <;> exact absurd (List.cons.inj he).1 (ne_of_isIdentifierPart hc (hno _ (by simp)))

/-- Before a closer of one character an inner reference ends with the name at the latest. -/
theorem exists_write_eq {form form' : Form} {name name' a y : List Char} (hcloser : ∃ e, form.closer = [e])
    (hbody : form.write name ++ form.closer = a ++ y) (hz : ∃ z, z ≠ [] ∧ y = form'.wrap name' ++ z) :
    ∃ b, form.write name = a ++ (form'.wrap name' ++ b) := by
  obtain ⟨e, hcloser⟩ := hcloser
  obtain ⟨z, hz, rfl⟩ := hz
  rw [hcloser, ← List.append_assoc] at hbody
  obtain ⟨b, _, hw⟩ := prefix_of_concat_eq hz hbody
  exact ⟨b, by simp [hw]⟩

/-- What opens inside an escaped string, behind its backslash, lies inside its name. -/
theorem exists_inside_escaped {form' : Form} {context : Context} {name name' a y rest rest' : List Char}
    (hf : Form.fits .escaped context = true) (ha : Form.admits .escaped name = true)
    (hf' : form'.fits (context.read ('\\' :: a)) = true) (ha' : form'.admits name' = true)
    (hbody : '"' :: (write .escaped name ++ closer .escaped) = a ++ y) (hy : y ≠ [])
    (hrest : y ++ rest = form'.wrap name' ++ rest') :
    (form' = .bracket ∨ form' = .accessor) ∧
      ∃ u b, '\\' :: a = opener .escaped ++ u ∧ write .escaped name = u ++ (form'.wrap name' ++ b) := by
  have hcontext : context = .literal .code false := beq_iff_eq.mp hf
  cases a with
  | nil =>
    -- nothing opens between the backslash and the quote
    obtain rfl : y = '"' :: (write .escaped name ++ closer .escaped) := hbody.symm
    rw [hcontext] at hf'
    cases form' with
    | string | escaped | single => cases hf'
    | bracket | accessor => cases (List.cons.inj hrest).1
  | cons e a =>
    obtain ⟨rfl, hbody'⟩ := List.cons.inj hbody
    have hinner : Context.read context ('\\' :: '"' :: a) = (Context.literal .doubleQuoted false).read a := by
      rw [hcontext]; rfl
    rw [hinner] at hf'
    obtain ⟨hforms, z, hz, rfl⟩ := exists_append_of_quoted (by simp) (by simp) hf ha hf' ha' hbody' hy hrest
    have hbody' : (encodeName (encodeName name) ++ ['\\']) ++ ['"'] = (a ++ form'.wrap name') ++ z := by
      simpa [write, closer, opener] using hbody'
    obtain ⟨z', _, hslash⟩ := prefix_of_concat_eq hz hbody'
    have hz' : z' ≠ [] := by
      intro heq
      subst heq
      have hread := congrArg (Context.literal .doubleQuoted false).read hslash
      rw [List.append_nil, Context.read_append, Context.read_append, (Steady.encodeName_twice name).back,
        read_wrap hf' ha'] at hread
      cases form' <;> cases hread
    obtain ⟨z'', _, hw⟩ := prefix_of_concat_eq hz' hslash
    refine ⟨hforms.imp id fun h => h.resolve_right ?_, a, z'', rfl, by simp [write, hw]⟩
    intro h
    cases h.1

/-- A reference that opens behind the start of another one stands behind its end or inside its name. -/
theorem wrap_nested {form form' : Form} {context : Context} {name name' d rest rest' : List Char}
    (hf : form.fits context = true) (ha : form.admits name = true) (hf' : form'.fits (context.read d) = true)
    (ha' : form'.admits name' = true) (he : form.wrap name ++ rest = d ++ (form'.wrap name' ++ rest'))
    (hd : d ≠ []) :
    form.wrap name <+: d ∨
      (form' = .bracket ∨ form' = .accessor ∨ (form = .string ∧ form' ≠ .string)) ∧
        ∃ a b, d = form.opener ++ a ∧ form.write name = a ++ (form'.wrap name' ++ b) := by
  rcases List.prefix_or_prefix_of_prefix (List.prefix_append _ rest) (he ▸ List.prefix_append d _) with h | ⟨y, hy⟩
  · exact .inl h
  by_cases hy0 : y = []
  · exact .inl (by simp [← hy, hy0])
  right
  have hrest : y ++ rest = form'.wrap name' ++ rest' := by
    have : d ++ (y ++ rest) = d ++ (form'.wrap name' ++ rest') := by rw [← he, ← hy, List.append_assoc]
    exact List.append_cancel_left this
  have hbody : form.opener ++ (form.write name ++ form.closer) = d ++ y := hy.symm
  have hread := read_opener hf
  obtain ⟨c, a, rfl⟩ := List.exists_cons_of_ne_nil hd
  cases form with
  | string | single =>
    obtain ⟨rfl, hbody'⟩ := List.cons.inj hbody
    obtain ⟨hforms, hz⟩ := exists_append_of_quoted (by simp) (by simp) hf ha (by rw [← hread]; exact hf') ha'
      hbody' hy0 hrest
    obtain ⟨b, hw⟩ := exists_write_eq ⟨_, rfl⟩ hbody' hz
    exact ⟨hforms, a, b, rfl, hw⟩
  | bracket =>
    obtain ⟨rfl, hbody'⟩ := List.cons.inj hbody
    obtain ⟨rfl, hz⟩ := exists_append_of_bracket ha ha' hbody' hy0 hrest
    obtain ⟨b, hw⟩ := exists_write_eq ⟨_, rfl⟩ hbody' hz
    exact ⟨.inr (.inl rfl), a, b, rfl, hw⟩
  | accessor =>
    obtain ⟨rfl, hbody'⟩ := List.cons.inj hbody
    have hbody' : name = a ++ y := by simpa [write, closer] using hbody'
    exact absurd hrest (not_opener_of_identifier ha hbody' hy0)
  | escaped =>
    obtain ⟨rfl, hbody'⟩ := List.cons.inj hbody
    obtain ⟨hforms, u, b, hu, hw⟩ := exists_inside_escaped hf ha hf' ha' hbody' hy0 hrest
    exact ⟨hforms.imp id .inl, u, b, hu, hw⟩

end Form

end FieldRemap
