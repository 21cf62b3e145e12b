/-
  FieldRemap.Proofs.Shift — where the positions of a text go when names in it are replaced.

  What stands at a position is kept unless an edit replaces it (`kept`). The edits before a
  position move it on by what they put in, and back by what they take out (`moved`).

  The edits of passages are those of the first one, and behind it those of the others
  (`Passage.renewals`). So a position is before the end of the first name, in the closer behind it,
  or in the passages that follow, and moving keeps the order (`Passage.moved_le_moved`,
  `Passage.moved_lt_moved`).
-/

import FieldRemap.Proofs.Layout
import Mathlib.Algebra.GroupWithZero.Nat

namespace FieldRemap

namespace Shift

/-! ## Positions -/

def kept (edits : List (Span × List Char)) (pos : Nat) : Bool :=
  edits.all fun edit => !edit.1.contains pos

def Clear (edits : List (Span × List Char)) (pos : Nat) : Prop :=
  ∀ edit ∈ edits, pos ≤ edit.1.start ∨ edit.1.stop ≤ pos

def added (edits : List (Span × List Char)) (pos : Nat) : Nat :=
  ((edits.filter fun edit => edit.1.stop ≤ pos).map fun edit => byteLength edit.2).sum

def removed (edits : List (Span × List Char)) (pos : Nat) : Nat :=
  ((edits.filter fun edit => edit.1.stop ≤ pos).map fun edit => edit.1.stop - edit.1.start).sum

/-- Where a position of the text comes to stand in the edited one. -/
def moved (edits : List (Span × List Char)) (pos : Nat) : Nat :=
  pos + added edits pos - removed edits pos

/-- The positions of a list that are kept, where they have gone. -/
def image (edits : List (Span × List Char)) (positions : List Nat) : List Nat :=
  (positions.filter (kept edits)).map (moved edits)

def shifted (bytes : Nat) (edit : Span × List Char) : Span × List Char :=
  (⟨edit.1.start + bytes, edit.1.stop + bytes⟩, edit.2)

variable {edit : Span × List Char} {edits : List (Span × List Char)} {pos bytes : Nat}

theorem kept_iff : kept edits pos = true ↔ ∀ edit ∈ edits, pos < edit.1.start ∨ edit.1.stop ≤ pos := by
  simp only [kept, List.all_eq_true, Bool.not_eq_true', Bool.eq_false_iff, ne_eq, Span.contains, Bool.and_eq_true,
    decide_eq_true_eq]
  exact forall₂_congr fun _ _ => by omega

theorem clear_of_kept (h : kept edits pos = true) : Clear edits pos :=
  fun edit hedit => (kept_iff.mp h edit hedit).imp_left Nat.le_of_lt

@[simp] theorem added_nil : added [] pos = 0 := rfl

@[simp] theorem removed_nil : removed [] pos = 0 := rfl

@[simp] theorem kept_nil : kept [] pos = true := rfl

@[simp] theorem moved_nil : moved [] pos = pos := rfl

theorem added_cons :
    added (edit :: edits) pos = (if edit.1.stop ≤ pos then byteLength edit.2 else 0) + added edits pos := by
  by_cases h : edit.1.stop ≤ pos <;> simp [added, h]

theorem removed_cons :
    removed (edit :: edits) pos =
      (if edit.1.stop ≤ pos then edit.1.stop - edit.1.start else 0) + removed edits pos := by
  by_cases h : edit.1.stop ≤ pos <;> simp [removed, h]

@[simp] theorem image_nil (xs : List Nat) : image [] xs = xs := by
  have hkept : kept [] = fun _ => true := rfl
  have hmoved : moved [] = id := rfl
  simp [image, hkept, hmoved]

theorem image_append (edits : List (Span × List Char)) (xs ys : List Nat) :
    image edits (xs ++ ys) = image edits xs ++ image edits ys := by
  rw [image, List.filter_append, List.map_append]
  rfl

theorem image_map {xs : List Nat} {f g : Nat → Nat}
    (h : ∀ x ∈ xs, kept edits (f x) = true ∧ moved edits (f x) = g x) : image edits (xs.map f) = xs.map g := by
  rw [image, List.filter_eq_self.mpr (List.forall_mem_map.mpr fun x hx => (h x hx).1), List.map_map]
  exact List.map_congr_left fun x hx => (h x hx).2

@[simp] theorem shifted_zero : shifted 0 = id := rfl

theorem map_shifted_add (a b : Nat) :
    edits.map (shifted (a + b)) = (edits.map (shifted b)).map (shifted a) := by
  rw [List.map_map]
  refine List.map_congr_left fun edit _ => ?_
  simp only [shifted, Function.comp_apply, Prod.mk.injEq, Span.mk.injEq, and_true]
  omega

/-- Behind the bytes the edits of the text that begins there count as in that text. -/
theorem added_shifted : added (edits.map (shifted bytes)) (pos + bytes) = added edits pos := by
  induction edits with
  | nil => rfl
  | cons edit edits ih => simp only [List.map_cons, added_cons, ih, shifted, Nat.add_le_add_iff_right]

theorem removed_shifted : removed (edits.map (shifted bytes)) (pos + bytes) = removed edits pos := by
  induction edits with
  | nil => rfl
  | cons edit edits ih =>
    simp only [List.map_cons, removed_cons, ih, shifted, Nat.add_le_add_iff_right, Nat.add_sub_add_right]

/-- Before them none of those edits has ended. -/
theorem added_shifted_of_lt (h : pos < bytes) : added (edits.map (shifted bytes)) pos = 0 := by
  induction edits with
  | nil => rfl
  | cons edit edits ih =>
    rw [List.map_cons, added_cons, ih, if_neg (by simp only [shifted]; omega)]

theorem removed_shifted_of_lt (h : pos < bytes) : removed (edits.map (shifted bytes)) pos = 0 := by
  induction edits with
  | nil => rfl
  | cons edit edits ih =>
    rw [List.map_cons, removed_cons, ih, if_neg (by simp only [shifted]; omega)]

end Shift

/-! ## The edits of passages -/

namespace Passage

open Shift

def nameStart (p : Passage) : Nat :=
  byteLength p.lead + byteLength p.form.opener

def nameStop (p : Passage) : Nat :=
  p.nameStart + byteLength (p.form.write p.old)

def reach (p : Passage) : Nat :=
  p.nameStop + byteLength p.form.closer

def newReach (p : Passage) : Nat :=
  p.nameStart + byteLength p.new + byteLength p.form.closer

/-- The edits that put in the new names of passages as they are. -/
def renewals : List Passage → List (Span × List Char)
  | [] => []
  | p :: ps => (⟨p.nameStart, p.nameStop⟩, p.new) :: (renewals ps).map (shifted p.reach)

/-- The name of a passage is to be replaced by one that its form admits and writes as it is. -/
def Plain (p : Passage) : Prop :=
  p.form.admits p.new = true ∧ p.form.write p.new = p.new

variable {p : Passage} {ps : List Passage} {tail : List Char} {pos : Nat}

theorem reach_eq (p : Passage) : p.reach = byteLength (p.lead ++ p.form.wrap p.old) := by
  simp only [reach, nameStop, nameStart, Form.wrap, byteLength_append]
  omega

theorem redirect_reference (h : p.Plain) (pos : Nat) :
    (p.reference pos).redirect p.new = shifted pos (⟨p.nameStart, p.nameStop⟩, p.new) := by
  have hadmits : (p.reference pos).form.admits p.new = true := h.1
  have hwrite : (p.reference pos).form.write p.new = p.new := h.2
  simp only [Reference.redirect, hadmits, if_true, hwrite]
  simp only [reference, shifted, nameStart, nameStop, Prod.mk.injEq, Span.mk.injEq, and_true]
  omega

/-- Redirecting the references of passages to names that are written as they are puts these in. -/
theorem map_redirect_located (h : ∀ p ∈ ps, p.Plain) (pos : Nat) :
    (located pos ps).map (fun x => x.1.redirect x.2.new) = (renewals ps).map (shifted pos) := by
  induction ps generalizing pos with
  | nil => rfl
  | cons p ps ih =>
    have hlast : pos + byteLength p.lead + byteLength (p.form.wrap p.old) = pos + p.reach := by
      rw [reach_eq, byteLength_append, Nat.add_assoc]
    rw [located, List.map_cons, redirect_reference (h p List.mem_cons_self), hlast,
      ih fun q hq => h q (List.mem_cons_of_mem _ hq), map_shifted_add]
    rfl

theorem source_cons_split (tail : List Char) (p : Passage) (ps : List Passage) : source tail (p :: ps) =
    (p.lead ++ p.form.opener) ++ (p.form.write p.old ++ (p.form.closer ++ source tail ps)) := by
  simp [Form.wrap]

theorem target_cons_split (h : p.Plain) : target tail (p :: ps) =
    (p.lead ++ p.form.opener) ++ (p.new ++ (p.form.closer ++ target tail ps)) := by
  simp [Form.rewrap, Form.wrap, h.1, h.2]

/-! ## Where positions go -/

theorem nameStart_le_nameStop (p : Passage) : p.nameStart ≤ p.nameStop := Nat.le_add_right _ _

theorem nameStop_le_reach (p : Passage) : p.nameStop ≤ p.reach := Nat.le_add_right _ _

/-- A position is before the end of the first name, in its closer, or in the passages that follow. -/
theorem position_cases (p : Passage) (pos : Nat) :
    pos < p.nameStop ∨ (∃ k, pos = p.nameStop + k ∧ k < byteLength p.form.closer) ∨ ∃ k, pos = k + p.reach := by
  by_cases hstop : pos < p.nameStop
  · exact .inl hstop
  · by_cases hlast : pos < p.reach
    · refine .inr (.inl ⟨pos - p.nameStop, by omega, ?_⟩)
      unfold reach at hlast
      omega
    · exact .inr (.inr ⟨pos - p.reach, by omega⟩)

theorem removed_le (ps : List Passage) (pos : Nat) : removed (renewals ps) pos ≤ pos := by
  induction ps generalizing pos with
  | nil => exact Nat.zero_le _
  | cons p ps ih =>
    have hstop := p.nameStop_le_reach
    rw [renewals, removed_cons]
    simp only
    by_cases hlast : pos < p.reach
    · rw [removed_shifted_of_lt hlast]
      split <;> omega
    · obtain ⟨k, rfl⟩ : ∃ k, pos = k + p.reach := ⟨pos - p.reach, by omega⟩
      have := ih k
      rw [removed_shifted]
      split <;> omega

/-- Up to the end of the first name nothing moves. -/
theorem moved_of_lt_nameStop (h : pos < p.nameStop) : moved (renewals (p :: ps)) pos = pos := by
  have hlast := p.nameStop_le_reach
  rw [moved, renewals, added_cons, removed_cons, added_shifted_of_lt (by omega), removed_shifted_of_lt (by omega),
    if_neg (by simp only; omega), if_neg (by simp only; omega)]
  rfl

/-- The closer stays behind the name. -/
theorem moved_closer {k : Nat} (h : k < byteLength p.form.closer) :
    moved (renewals (p :: ps)) (p.nameStop + k) = p.nameStart + byteLength p.new + k := by
  have hlt : p.nameStop + k < p.reach := by
    unfold reach
    omega
  have hstart := p.nameStart_le_nameStop
  rw [moved, renewals, added_cons, removed_cons, added_shifted_of_lt hlt, removed_shifted_of_lt hlt,
    if_pos (by simp only; omega), if_pos (by simp only; omega)]
  simp only
  omega

/-- Behind the passage the positions go where they go in the text that follows. -/
theorem moved_behind (p : Passage) (ps : List Passage) (k : Nat) :
    moved (renewals (p :: ps)) (k + p.reach) = moved (renewals ps) k + p.newReach := by
  have hstart := p.nameStart_le_nameStop
  have hstop := p.nameStop_le_reach
  have hremoved := removed_le ps k
  rw [moved, moved, renewals, added_cons, removed_cons, added_shifted, removed_shifted, if_pos (by simp only; omega),
    if_pos (by simp only; omega)]
  simp only [newReach, reach] at *
  omega

theorem kept_cons_of_lt (h : pos < p.reach) :
    kept (renewals (p :: ps)) pos = true ↔ pos < p.nameStart ∨ p.nameStop ≤ pos := by
  rw [kept_iff, renewals]
  refine ⟨fun hall => hall _ List.mem_cons_self, fun hfirst edit hedit => ?_⟩
  rcases List.mem_cons.mp hedit with rfl | hedit
  · exact hfirst
  · obtain ⟨edit, -, rfl⟩ := List.mem_map.mp hedit
    simp only [shifted]
    omega

theorem kept_behind (p : Passage) (ps : List Passage) (k : Nat) :
    kept (renewals (p :: ps)) (k + p.reach) = kept (renewals ps) k := by
  have hstop := p.nameStop_le_reach
  rw [Bool.eq_iff_iff, kept_iff, kept_iff, renewals, List.forall_mem_cons, List.forall_mem_map]
  constructor
  · rintro ⟨-, hall⟩ edit hedit
    have := hall edit hedit
    simp only [shifted] at this
    omega
  · intro hall
    refine ⟨by simp only; omega, fun edit hedit => ?_⟩
    have := hall edit hedit
    simp only [shifted]
    omega

theorem clear_of_clear_cons (h : Clear (renewals (p :: ps)) pos) : pos ≤ p.nameStart ∨ p.nameStop ≤ pos :=
  h (⟨p.nameStart, p.nameStop⟩, p.new) List.mem_cons_self

theorem clear_behind {k : Nat} : Clear (renewals (p :: ps)) (k + p.reach) ↔ Clear (renewals ps) k := by
  have hstop := p.nameStop_le_reach
  unfold Clear
  rw [renewals, List.forall_mem_cons, List.forall_mem_map]
  constructor
  · rintro ⟨-, hall⟩ edit hedit
    have := hall edit hedit
    simp only [shifted] at this
    omega
  · intro hall
    refine ⟨by simp only; omega, fun edit hedit => ?_⟩
    have := hall edit hedit
    simp only [shifted]
    omega

/-- Moving keeps the order of positions that are inside no edit. -/
theorem moved_le_moved {a b : Nat} (ha : Clear (renewals ps) a) (hb : Clear (renewals ps) b) (h : a ≤ b) :
    moved (renewals ps) a ≤ moved (renewals ps) b := by
  induction ps generalizing a b with
  | nil => exact h
  | cons p ps ih =>
    have hstart := p.nameStart_le_nameStop
    have hclear := clear_of_clear_cons ha
    have hnew : p.nameStart + byteLength p.new + byteLength p.form.closer = p.newReach := rfl
    have hlast : p.nameStop + byteLength p.form.closer = p.reach := rfl
    rcases p.position_cases a with hlt | ⟨k, rfl, hk⟩ | ⟨k, rfl⟩
    · rw [moved_of_lt_nameStop hlt]
      rcases p.position_cases b with hlt' | ⟨k', rfl, hk'⟩ | ⟨k', rfl⟩
      · rwa [moved_of_lt_nameStop hlt']
      · rw [moved_closer hk']
        omega
      · rw [moved_behind]
        omega
    · rw [moved_closer hk]
      rcases p.position_cases b with hlt' | ⟨k', rfl, hk'⟩ | ⟨k', rfl⟩
      · omega
      · rw [moved_closer hk']
        omega
      · rw [moved_behind]
        omega
    · rcases p.position_cases b with hlt' | ⟨k', rfl, hk'⟩ | ⟨k', rfl⟩
      · omega
      · omega
      · rw [moved_behind, moved_behind]
        exact Nat.add_le_add_right (ih (clear_behind.mp ha) (clear_behind.mp hb) (by omega)) _

/-! ## Names that are not empty -/

def Filled (ps : List Passage) : Prop :=
  ∀ p ∈ ps, p.nameStart < p.nameStop

theorem moved_zero (h : Filled ps) : moved (renewals ps) 0 = 0 := by
  cases ps with
  | nil => rfl
  | cons p ps => exact moved_of_lt_nameStop (Nat.zero_lt_of_lt (h p List.mem_cons_self))

/-- Behind the first name stands what stood there. -/
theorem moved_nameStop (h : Filled ps) (p : Passage) :
    moved (renewals (p :: ps)) p.nameStop = p.nameStart + byteLength p.new := by
  by_cases hcloser : 0 < byteLength p.form.closer
  · exact moved_closer hcloser
  · have hreach : p.nameStop = 0 + p.reach := by
      unfold reach
      omega
    rw [hreach, moved_behind, moved_zero h]
    unfold newReach
    omega

/-- Each edit puts its text where the name was. -/
theorem moved_stop (h : Filled ps) {edit : Span × List Char} (hedit : edit ∈ renewals ps) :
    moved (renewals ps) edit.1.stop = moved (renewals ps) edit.1.start + byteLength edit.2 := by
  induction ps generalizing edit with
  | nil => cases hedit
  | cons p ps ih =>
    obtain ⟨hp, hps⟩ := List.forall_mem_cons.mp h
    rcases List.mem_cons.mp hedit with rfl | hedit
    · rw [moved_nameStop hps, moved_of_lt_nameStop hp]
    · obtain ⟨edit, hmem, rfl⟩ := List.mem_map.mp hedit
      simp only [shifted, moved_behind, ih hps hmem]
      omega

/-- What follows a byte that is kept follows it still. -/
theorem moved_succ (h : Filled ps) (hkept : kept (renewals ps) pos = true) :
    moved (renewals ps) (pos + 1) = moved (renewals ps) pos + 1 := by
  induction ps generalizing pos with
  | nil => rfl
  | cons p ps ih =>
    obtain ⟨hp, hps⟩ := List.forall_mem_cons.mp h
    rcases p.position_cases pos with hlt | ⟨k, rfl, hk⟩ | ⟨k, rfl⟩
    · have hstart : pos < p.nameStart ∨ p.nameStop ≤ pos :=
        kept_iff.mp hkept (⟨p.nameStart, p.nameStop⟩, p.new) List.mem_cons_self
      rw [moved_of_lt_nameStop hlt, moved_of_lt_nameStop (by omega)]
    · rw [moved_closer hk]
      by_cases hlast : k + 1 < byteLength p.form.closer
      · exact moved_closer hlast
      · have hreach : p.nameStop + k + 1 = 0 + p.reach := by
          unfold reach
          omega
        rw [hreach, moved_behind, moved_zero hps]
        unfold newReach
        omega
    · rw [kept_behind] at hkept
      rw [Nat.add_right_comm, moved_behind, moved_behind, ih hps hkept]
      omega

theorem clear_succ (hkept : kept (renewals ps) pos = true) : Clear (renewals ps) (pos + 1) :=
  fun edit hedit => (kept_iff.mp hkept edit hedit).imp id fun h => by omega

/-- What is kept stands before all that stood behind it. -/
theorem moved_lt_moved (h : Filled ps) {a b : Nat} (ha : kept (renewals ps) a = true) (hb : Clear (renewals ps) b)
    (hlt : a < b) : moved (renewals ps) a < moved (renewals ps) b := by
  have hle := moved_le_moved (clear_succ ha) hb hlt
  rwa [moved_succ h ha] at hle

/-- An edit is inside no edit, neither where it starts nor where it stops. -/
theorem clear_edit {edit : Span × List Char} (hedit : edit ∈ renewals ps) :
    Clear (renewals ps) edit.1.start ∧ Clear (renewals ps) edit.1.stop := by
  induction ps generalizing edit with
  | nil => cases hedit
  | cons p ps ih =>
    have hstart := p.nameStart_le_nameStop
    have hstop := p.nameStop_le_reach
    rcases List.mem_cons.mp hedit with rfl | hedit
    · constructor <;>
      · intro other hother
        rcases List.mem_cons.mp hother with rfl | hother
        · simp
        · obtain ⟨other, -, rfl⟩ := List.mem_map.mp hother
          simp only [shifted]
          omega
    · obtain ⟨edit, hmem, rfl⟩ := List.mem_map.mp hedit
      exact ⟨clear_behind.mpr (ih hmem).1, clear_behind.mpr (ih hmem).2⟩

/-- The end of the text goes to the end of the edited one. -/
theorem moved_byteLength (h : Filled ps) (hplain : ∀ p ∈ ps, p.Plain) :
    moved (renewals ps) (byteLength (source tail ps)) = byteLength (target tail ps) := by
  induction ps with
  | nil => rfl
  | cons p ps ih =>
    obtain ⟨hp, hps⟩ := List.forall_mem_cons.mp hplain
    have hsource : byteLength (source tail (p :: ps)) = byteLength (source tail ps) + p.reach := by
      simp only [source_cons_split, byteLength_append, reach, nameStop, nameStart]
      omega
    have htarget : byteLength (target tail (p :: ps)) = byteLength (target tail ps) + p.newReach := by
      simp only [target_cons_split hp, byteLength_append, newReach, nameStart]
      omega
    rw [hsource, htarget, moved_behind, ih (List.forall_mem_cons.mp h).2 hps]

/-- What is kept stands where it has gone. -/
theorem standsAt_moved (hplain : ∀ p ∈ ps, p.Plain) {c : Char} (hkept : kept (renewals ps) pos = true)
    (h : StandsAt (source tail ps) c pos) : StandsAt (target tail ps) c (moved (renewals ps) pos) := by
  induction ps generalizing pos with
  | nil => exact h
  | cons p ps ih =>
    obtain ⟨hp, hps⟩ := List.forall_mem_cons.mp hplain
    have hstart : byteLength (p.lead ++ p.form.opener) = p.nameStart := byteLength_append _ _
    have hstop : p.nameStop = p.nameStart + byteLength (p.form.write p.old) := rfl
    have hreach : p.reach = p.nameStop + byteLength p.form.closer := rfl
    rw [source_cons_split, standsAt_append, hstart] at h
    rw [target_cons_split hp, standsAt_append, hstart]
    rcases h with hlead | ⟨j, hbody, rfl⟩
    · have hlt := hlead.lt_byteLength
      rw [hstart] at hlt
      rw [moved_of_lt_nameStop (by omega)]
      exact .inl hlead
    refine .inr ?_
    rcases standsAt_append.mp hbody with hname | ⟨i, hbehind, rfl⟩
    · -- the name is not kept
      have hlt := hname.lt_byteLength
      rw [kept_cons_of_lt (by omega)] at hkept
      omega
    rcases standsAt_append.mp hbehind with hcloser | ⟨k, hrest, rfl⟩
    · have hlt := hcloser.lt_byteLength
      have hpos : i + byteLength (p.form.write p.old) + p.nameStart = p.nameStop + i := by omega
      rw [hpos, moved_closer hlt]
      exact ⟨i + byteLength p.new, standsAt_append.mpr (.inr ⟨i, standsAt_append.mpr (.inl hcloser), rfl⟩), by omega⟩
    · have hpos : k + byteLength p.form.closer + byteLength (p.form.write p.old) + p.nameStart = k + p.reach := by omega
      rw [hpos, kept_behind] at hkept
      rw [hpos, moved_behind]
      refine ⟨_, standsAt_append.mpr (.inr ⟨_, standsAt_append.mpr (.inr ⟨_, ih hps hkept hrest, rfl⟩), rfl⟩), ?_⟩
      unfold newReach
      omega

/-- What an edit puts in stands where its name started. -/
theorem exists_inserted (h : Filled ps) (hplain : ∀ p ∈ ps, p.Plain) {edit : Span × List Char}
    (hedit : edit ∈ renewals ps) : ∃ front back, target tail ps = front ++ (edit.2 ++ back) ∧
      moved (renewals ps) edit.1.start = byteLength front := by
  induction ps generalizing edit with
  | nil => cases hedit
  | cons p ps ih =>
    obtain ⟨hp, hps⟩ := List.forall_mem_cons.mp h
    obtain ⟨hplainp, hplains⟩ := List.forall_mem_cons.mp hplain
    rw [target_cons_split hplainp]
    rcases List.mem_cons.mp hedit with rfl | hedit
    · refine ⟨p.lead ++ p.form.opener, _, rfl, ?_⟩
      rw [moved_of_lt_nameStop hp, byteLength_append]
      rfl
    · obtain ⟨edit, hmem, rfl⟩ := List.mem_map.mp hedit
      obtain ⟨front, back, htarget, hmoved⟩ := ih hps hplains hmem
      refine ⟨p.lead ++ p.form.opener ++ (p.new ++ (p.form.closer ++ front)), back, by simp [htarget, shifted], ?_⟩
      simp only [shifted, moved_behind, hmoved, newReach, nameStart, byteLength_append]
      omega

theorem clear_byteLength (tail : List Char) (ps : List Passage) :
    Clear (renewals ps) (byteLength (source tail ps)) := by
  induction ps with
  | nil => exact fun _ h => absurd h List.not_mem_nil
  | cons p ps ih =>
    have hsource : byteLength (source tail (p :: ps)) = byteLength (source tail ps) + p.reach := by
      simp only [source_cons_split, byteLength_append, reach, nameStop, nameStart]
      omega
    rw [hsource]
    exact clear_behind.mpr ih

/-! ## Images of positions -/

variable {xs : List Nat}

theorem image_lead (h : ∀ x ∈ xs, x < p.nameStart) : image (renewals (p :: ps)) xs = xs := by
  have hstop := p.nameStart_le_nameStop
  have hreach := p.nameStop_le_reach
  have himage := @image_map (renewals (p :: ps)) xs id id fun x hx => by
    have hlt : id x < p.nameStart := h x hx
    exact ⟨(kept_cons_of_lt (by omega)).mpr (.inl hlt), moved_of_lt_nameStop (by omega)⟩
  rwa [List.map_id] at himage

/-- A name goes with all its positions. -/
theorem image_name (h : ∀ x ∈ xs, x < byteLength (p.form.write p.old)) :
    image (renewals (p :: ps)) (xs.map (· + p.nameStart)) = [] := by
  have hstop : p.nameStop = p.nameStart + byteLength (p.form.write p.old) := rfl
  have hreach := p.nameStop_le_reach
  rw [image, List.filter_eq_nil_iff.mpr, List.map_nil]
  refine List.forall_mem_map.mpr fun x hx => ?_
  have := h x hx
  rw [kept_cons_of_lt (by omega)]
  omega

theorem image_closer (h : ∀ x ∈ xs, x < byteLength p.form.closer) :
    image (renewals (p :: ps)) (xs.map (· + p.nameStop)) = xs.map (· + (p.nameStart + byteLength p.new)) := by
  refine image_map fun x hx => ?_
  have hlt := h x hx
  have hreach : p.reach = p.nameStop + byteLength p.form.closer := rfl
  refine ⟨(kept_cons_of_lt (by omega)).mpr (by omega), ?_⟩
  rw [Nat.add_comm x, moved_closer hlt, Nat.add_comm]

/-- Behind a passage the positions go as in the text that begins there. -/
theorem image_behind (p : Passage) (ps : List Passage) (xs : List Nat) :
    image (renewals (p :: ps)) (xs.map (· + p.reach)) = (image (renewals ps) xs).map (· + p.newReach) := by
  have hkept : kept (renewals (p :: ps)) ∘ (· + p.reach) = kept (renewals ps) := funext (kept_behind p ps)
  rw [image, List.filter_map, hkept, List.map_map, image, List.map_map]
  exact List.map_congr_left fun x _ => moved_behind p ps x

/-- A kept position goes to the image of a list exactly when it is in the list. -/
theorem mem_image_iff (h : Filled ps) (hkept : kept (renewals ps) pos = true) :
    moved (renewals ps) pos ∈ image (renewals ps) xs ↔ pos ∈ xs := by
  constructor
  · intro hmem
    obtain ⟨x, hx, heq⟩ := List.mem_map.mp hmem
    obtain ⟨hx, hkept'⟩ := List.mem_filter.mp hx
    rcases Nat.lt_trichotomy x pos with hlt | rfl | hlt
    · have := moved_lt_moved h hkept' (clear_of_kept hkept) hlt
      omega
    · exact hx
    · have := moved_lt_moved h hkept (clear_of_kept hkept') hlt
      omega
  · intro hmem
    exact List.mem_map_of_mem (List.mem_filter.mpr ⟨hmem, hkept⟩)

/-- Nothing goes where an edit puts its text. -/
theorem not_mem_image (h : Filled ps) {edit : Span × List Char} (hedit : edit ∈ renewals ps)
    (hstart : moved (renewals ps) edit.1.start ≤ pos)
    (hstop : pos < moved (renewals ps) edit.1.start + byteLength edit.2) :
    pos ∉ image (renewals ps) xs := by
  intro hmem
  obtain ⟨x, hx, rfl⟩ := List.mem_map.mp hmem
  have hkept := (List.mem_filter.mp hx).2
  obtain ⟨hclear, hclear'⟩ := clear_edit hedit
  rcases kept_iff.mp hkept edit hedit with hlt | hle
  · have := moved_lt_moved h hkept hclear hlt
    omega
  · have := moved_le_moved hclear' (clear_of_kept hkept) hle
    rw [moved_stop h hedit] at this
    omega

end Passage

end FieldRemap
