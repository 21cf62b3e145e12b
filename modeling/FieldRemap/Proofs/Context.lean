/-
  FieldRemap.Proofs.Context — reading a text from a context.

  `Context.read` is the context after a text. A text nests its single quotes when none stands
  outside its double-quoted literals (`Context.nests`); read from outside, such a text is
  outside every literal or in a double-quoted one at each of its places (`inString_of_nests`).

  Inside a double-quoted literal a stretch of text is steady when it is read with the expression
  in one context throughout and leaves that context as it was (`Steady`): what is written inside
  an expression string, or bare in an expression, can be replaced by any other steady stretch.
-/

import Mathlib.Data.List.Infix
import FieldRemap.QuoteMap

namespace FieldRemap

namespace Context

def read (context : Context) (text : List Char) : Context :=
  text.foldl next context

@[simp] theorem read_nil (context : Context) : context.read [] = context := rfl

@[simp] theorem read_cons (context : Context) (c : Char) (text : List Char) :
    context.read (c :: text) = (context.next c).read text := rfl

@[simp] theorem read_append (context : Context) (a b : List Char) :
    context.read (a ++ b) = (context.read a).read b :=
  List.foldl_append

def inString : Context → Bool
  | .literal .. | .backslash .. => true
  | _ => false

def inner : Context → ExpressionContext
  | .literal inner _ | .backslash inner _ => inner
  | _ => .code

/-- Whether no single quote of a text that starts in this context stands outside its
    double-quoted literals. -/
def nests (context : Context) : List Char → Bool
  | [] => true
  | c :: rest => !(context == .outside && c == '\'') && (context.next c).nests rest

@[simp] theorem nests_nil (context : Context) : context.nests [] = true := rfl

theorem nests_cons {context : Context} {c : Char} {rest : List Char} :
    context.nests (c :: rest) = true ↔
      (context = .outside → c ≠ '\'') ∧ (context.next c).nests rest = true := by
  simp [nests, imp_iff_not_or]

theorem nests_append {context : Context} {a b : List Char} :
    context.nests (a ++ b) = true ↔ context.nests a = true ∧ (context.read a).nests b = true := by
  induction a generalizing context with
  | nil => simp
  | cons c a ih => simp only [List.cons_append, nests_cons, ih, read_cons, and_assoc]

theorem next_inString {context : Context} {c : Char} (h : context = .outside ∨ context.inString = true)
    (hc : context = .outside → c ≠ '\'') : context.next c = .outside ∨ (context.next c).inString = true := by
  rcases h with rfl | h
  · have := hc rfl
    by_cases hq : c = '"' <;> simp [next, hq, this, inString]
  · match context, h with
    | .literal inner escaped, _ =>
      simp only [next]
      split
      · exact .inl rfl
      · split
        · exact .inr rfl
        · split <;> exact .inr rfl
    | .backslash inner true, _ => exact .inr rfl
    | .backslash inner false, _ =>
      simp only [next]
      split
      · exact .inr rfl
      · split <;> exact .inr rfl

/-- Where a text nests its single quotes it is outside every literal, or in a double-quoted one. -/
theorem inString_of_nests {context : Context} {text : List Char}
    (h : context = .outside ∨ context.inString = true) (hn : context.nests text = true) :
    context.read text = .outside ∨ (context.read text).inString = true := by
  induction text generalizing context with
  | nil => exact h
  | cons c text ih =>
    obtain ⟨hc, hn⟩ := nests_cons.mp hn
    exact ih (next_inString h hc) hn

theorem ne_outside_of_inString {context : Context} (h : context.inString = true) : context ≠ .outside := by
  intro he
  subst he
  cases h

end Context

/-- Read from outside every string the text ends there, and none of its single quotes stands outside. -/
structure Closed (text : List Char) : Prop where
  nests : Context.outside.nests text = true
  back : Context.outside.read text = .outside

theorem Closed.append {a b : List Char} (ha : Closed a) (hb : Closed b) : Closed (a ++ b) where
  nests := Context.nests_append.mpr ⟨ha.nests, ha.back.symm ▸ hb.nests⟩
  back := by rw [Context.read_append, ha.back, hb.back]

/-- A text without quotes is closed. -/
theorem closed_of_not_quote {text : List Char} (h : ∀ c ∈ text, c ≠ '"' ∧ c ≠ '\'') : Closed text := by
  induction text with
  | nil => exact ⟨rfl, rfl⟩
  | cons c text ih =>
    obtain ⟨⟨hq, hs⟩, htext⟩ := List.forall_mem_cons.mp h
    have hnext : Context.outside.next c = .outside := by simp [Context.next, hq, hs]
    have ih := ih htext
    exact ⟨Context.nests_cons.mpr ⟨fun _ => hs, hnext.symm ▸ ih.nests⟩, by rw [Context.read_cons, hnext, ih.back]⟩

namespace Context

/-! ## What holds all the way through a text -/

/-- The condition holds of the context at every place of the text, both ends included. -/
def Through (P : Context → Prop) (context : Context) (text : List Char) : Prop :=
  ∀ front, front <+: text → P (context.read front)

theorem through_nil {P : Context → Prop} {context : Context} : Through P context [] ↔ P context := by
  simp [Through]

theorem through_cons {P : Context → Prop} {context : Context} {c : Char} {text : List Char} :
    Through P context (c :: text) ↔ P context ∧ Through P (context.next c) text := by
  constructor
  · intro h
    refine ⟨h [] (List.nil_prefix), fun front hf => ?_⟩
    exact h (c :: front) (List.cons_prefix_cons.mpr ⟨rfl, hf⟩)
  · intro h' front hf
    obtain ⟨h0, h⟩ := h'
    cases front with
    | nil => exact h0
    | cons d front =>
      obtain ⟨rfl, hfront⟩ := List.cons_prefix_cons.mp hf
      exact h front hfront

instance decidableThrough {P : Context → Prop} [DecidablePred P] :
    (context : Context) → (text : List Char) → Decidable (Through P context text)
  | context, [] => decidable_of_iff (P context) through_nil.symm
  | context, c :: text =>
    have := decidableThrough (P := P) (context.next c) text
    decidable_of_iff (P context ∧ Through P (context.next c) text) through_cons.symm

theorem Through.append {P : Context → Prop} {context : Context} {a b : List Char}
    (ha : Through P context a) (hb : Through P (context.read a) b) : Through P context (a ++ b) := by
  induction a generalizing context with
  | nil => exact hb
  | cons c a ih =>
    obtain ⟨h0, ha⟩ := through_cons.mp ha
    exact through_cons.mpr ⟨h0, ih ha hb⟩

theorem Through.read {P : Context → Prop} {context : Context} {text : List Char}
    (h : Through P context text) : P (context.read text) :=
  h text List.prefix_rfl

theorem Through.mono {P Q : Context → Prop} {context : Context} {text : List Char}
    (h : Through P context text) (hpq : ∀ c, P c → Q c) : Through Q context text :=
  fun front hf => hpq _ (h front hf)

/-- A text that is nowhere outside nests its single quotes. -/
theorem nests_of_through {context : Context} {text : List Char}
    (h : Through (fun c => c.inString = true) context text) : context.nests text = true := by
  induction text generalizing context with
  | nil => rfl
  | cons c text ih =>
    obtain ⟨h0, h⟩ := through_cons.mp h
    exact nests_cons.mpr ⟨fun ho => absurd ho (ne_outside_of_inString h0), ih h⟩

end Context

/-! ## Steady stretches -/

def Within (inner : ExpressionContext) (context : Context) : Prop :=
  context.inString = true ∧ context.inner = inner

/-- The text is read with the expression in one context all the way, and leaves it there. -/
structure Steady (inner : ExpressionContext) (text : List Char) : Prop where
  within : Context.Through (Within inner) (.literal inner false) text
  back : (Context.literal inner false).read text = .literal inner false

namespace Steady

variable {inner : ExpressionContext}

theorem nil : Steady inner [] :=
  ⟨Context.through_nil.mpr ⟨rfl, rfl⟩, rfl⟩

theorem append {a b : List Char} (ha : Steady inner a) (hb : Steady inner b) : Steady inner (a ++ b) :=
  ⟨ha.within.append (by rw [ha.back]; exact hb.within), by rw [Context.read_append, ha.back, hb.back]⟩

theorem flatMap {f : Char → List Char} {text : List Char} (h : ∀ c ∈ text, Steady inner (f c)) :
    Steady inner (text.flatMap f) := by
  induction text with
  | nil => exact nil
  | cons c text ih =>
    exact (h c List.mem_cons_self).append (ih fun d hd => h d (List.mem_cons_of_mem _ hd))

/-- A character that opens, closes and escapes nothing. -/
theorem singleton {c : Char} (hq : c ≠ '"') (hb : c ≠ '\\') (ha : c = '\'' → inner = .doubleQuoted) :
    Steady inner [c] := by
  have hback : (Context.literal inner false).next c = .literal inner false := by
    cases inner <;> simp_all [Context.next, ExpressionContext.afterPlain]
  refine ⟨Context.through_cons.mpr ⟨⟨rfl, rfl⟩, ?_⟩, hback⟩
  rw [hback]
  exact Context.through_nil.mpr ⟨rfl, rfl⟩

/-- A backslash and a character other than the quote and the backslash, which it takes with it. -/
theorem escape {k : Char} (hq : k ≠ '"') (hb : k ≠ '\\') : Steady inner ['\\', k] := by
  refine ⟨?_, by simp [Context.next, hq, hb]⟩
  simp only [Context.through_cons, Context.through_nil, Within]
  simp [Context.next, hq, hb, Context.inString, Context.inner]

/-- Two backslashes are one of the expression, which takes the next character with it. -/
theorem backslashed {text : List Char} (hi : inner ≠ .code)
    (hw : Context.Through (Within inner) (.literal inner true) text)
    (hback : (Context.literal inner true).read text = .literal inner false) :
    Steady inner ('\\' :: '\\' :: text) := by
  have hi' : (inner != .code) = true := by simpa using hi
  refine ⟨?_, by simpa [Context.next, hi'] using hback⟩
  simp only [Context.through_cons]
  refine ⟨⟨rfl, rfl⟩, ⟨rfl, rfl⟩, ?_⟩
  simpa [Context.next, hi'] using hw

end Steady

end FieldRemap
