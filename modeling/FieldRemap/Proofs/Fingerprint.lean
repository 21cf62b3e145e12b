/-
  FieldRemap.Proofs.Fingerprint — which inputs a fingerprint tells apart.

  What is digested are the bytes of one text, the parts of the input behind their separators
  (`preimage_eq`). The order of the fields makes no difference to it, since their keys and names are
  sorted (`pairs_eq_iff`). Where no part holds a separator that could stand behind it, the parts can
  be read back (`joined_inj`), so that what is digested is the same for the same inputs only, and so
  is the fingerprint unless the digest collides (`preimage_separates`). A separator in a key or a
  name is taken for one (`preimage_shifted`).
-/

import FieldRemap.Fingerprint
import FieldRemap.Proofs.Lists
import FieldRemap.Registry

namespace FieldRemap

/-! ## Bytes -/

/-- A hexadecimal text spells one byte string. -/
theorem hexText_inj {a b : List UInt8} (h : hexText a = hexText b) : a = b := by
  have hdigit : ∀ m n : Fin 16, hexDigit m = hexDigit n → m = n := by decide
  refine flatMap_inj (fun _ => List.cons_ne_nil _ _) (fun c d hprefix => ?_) h
  have heq := hprefix.eq_of_length rfl
  simp only [List.cons.injEq, and_true] at heq
  have hc := c.toNat_lt
  have hd := d.toNat_lt
  have hhigh := hdigit ⟨c.toNat / 16, by omega⟩ ⟨d.toNat / 16, by omega⟩ heq.1
  have hlow := hdigit ⟨c.toNat % 16, by omega⟩ ⟨d.toNat % 16, by omega⟩ heq.2
  simp only [Fin.mk.injEq] at hhigh hlow
  exact UInt8.toNat_inj.mp (by omega)

namespace SpecFingerprint

theorem bytes_append (a b : String) : bytes (a ++ b) = bytes a ++ bytes b := by
  simp [bytes, toList_eq_data, String.toUTF8_eq_toByteArray, String.toByteArray_append]

theorem bytes_inj {a b : String} (h : bytes a = bytes b) : a = b := by
  simp only [bytes, toList_eq_data, Array.toList_inj] at h
  exact String.toByteArray_inj.mp (ByteArray.ext h)

/-! ## The order of the fields -/

theorem pairLe_iff {a b : String × String} : pairLe a b = true ↔ a.1 < b.1 ∨ a.1 = b.1 ∧ a.2 ≤ b.2 := by
  simp [pairLe]

theorem pairLe_trans (a b c : String × String) (hab : pairLe a b = true) (hbc : pairLe b c = true) :
    pairLe a c = true := by
  rw [pairLe_iff] at *
  rcases hab with hab | ⟨hab, hname⟩ <;> rcases hbc with hbc | ⟨hbc, hname'⟩
  · exact .inl (String.lt_trans hab hbc)
  · exact .inl (hbc ▸ hab)
  · exact .inl (hab ▸ hbc)
  · exact .inr ⟨hab.trans hbc, String.le_trans hname hname'⟩

theorem pairLe_total (a b : String × String) : (pairLe a b || pairLe b a) = true := by
  rw [Bool.or_eq_true, pairLe_iff, pairLe_iff]
  by_cases hlt : a.1 < b.1
  · exact .inl (.inl hlt)
  · by_cases heq : a.1 = b.1
    · exact (String.le_total a.2 b.2).imp (fun hle => .inr ⟨heq, hle⟩) fun hle => .inr ⟨heq.symm, hle⟩
    · exact .inr (.inl (key_lt_of_not_lt_of_ne hlt heq))

theorem pairLe_antisymm {a b : String × String} (hab : pairLe a b = true) (hba : pairLe b a = true) : a = b := by
  rw [pairLe_iff] at *
  rcases hab with hab | ⟨hkey, hname⟩ <;> rcases hba with hba | ⟨hkey', hname'⟩
  · exact absurd hba (String.lt_asymm hab)
  · exact absurd (hkey' ▸ hab) (String.lt_irrefl _)
  · exact absurd (hkey ▸ hba) (String.lt_irrefl _)
  · exact Prod.ext hkey (String.le_antisymm hname hname')

def keyAndName (field : DatasetField) : String × String :=
  (field.key, field.name)

variable {specText specText' : String} {fields fields' : List DatasetField}

theorem pairs_perm (fields : List DatasetField) : (pairs fields).Perm (fields.map keyAndName) :=
  List.mergeSort_perm _ _

/-- The sorted keys and names are the same for the same keys and names. -/
theorem pairs_eq_iff : pairs fields = pairs fields' ↔ (fields.map keyAndName).Perm (fields'.map keyAndName) := by
  constructor
  · intro h
    have hperm := pairs_perm fields'
    rw [← h] at hperm
    exact (pairs_perm fields).symm.trans hperm
  · intro h
    have hsorted (fields : List DatasetField) : (pairs fields).Pairwise fun a b => pairLe a b = true :=
      List.pairwise_mergeSort pairLe_trans pairLe_total _
    refine List.Perm.eq_of_pairwise (fun a b _ _ hab hba => pairLe_antisymm hab hba) (hsorted fields)
      (hsorted fields') ?_
    exact (pairs_perm fields).trans (h.trans (pairs_perm fields').symm)

/-! ## The parts of the input -/

/-- Keys and names, each pair behind a null character and with a unit separator in between. -/
def joinedPairs : List (String × String) → List Char
  | [] => []
  | (key, name) :: rest => '\x00' :: key.toList ++ '\x1f' :: name.toList ++ joinedPairs rest

def joined (specText : String) (fields : List DatasetField) : List Char :=
  specText.toList ++ joinedPairs (pairs fields)

/-- What is digested are the bytes of one text. -/
theorem preimage_eq (specText : String) (fields : List DatasetField) :
    preimage specText fields = bytes (String.ofList (joined specText fields)) := by
  have hpairs (pairs : List (String × String)) :
      pairs.flatMap (fun pair => 0 :: bytes pair.1 ++ 0x1f :: bytes pair.2) =
        bytes (String.ofList (joinedPairs pairs)) := by
    have hempty : bytes "" = [] := toList_eq_data _
    have hnull : bytes "\x00" = [0] := toList_eq_data _
    have hunit : bytes "\x1f" = [0x1f] := toList_eq_data _
    induction pairs with
    | nil => exact hempty.symm
    | cons pair rest ih =>
      obtain ⟨key, name⟩ := pair
      have hjoined : String.ofList (joinedPairs ((key, name) :: rest)) =
          "\x00" ++ key ++ "\x1f" ++ name ++ String.ofList (joinedPairs rest) := by
        apply String.toList_injective
        simp [joinedPairs]
      rw [List.flatMap_cons, ih, hjoined, bytes_append, bytes_append, bytes_append, bytes_append, hnull, hunit]
      simp
  have htext : String.ofList (joined specText fields) = specText ++ String.ofList (joinedPairs (pairs fields)) := by
    apply String.toList_injective
    simp [joined]
  rw [htext, bytes_append, ← hpairs]
  rfl

/-- Two texts without a separator are the same when what starts with the separator behind each makes them one text. -/
theorem append_inj_of_separator {α : Type} {separator : α} {a b rest others : List α} (ha : separator ∉ a)
    (hb : separator ∉ b) (hrest : ∀ x ∈ rest.head?, x = separator) (hothers : ∀ x ∈ others.head?, x = separator)
    (h : a ++ rest = b ++ others) : a = b ∧ rest = others := by
  rcases List.append_eq_append_iff.mp h with ⟨between, rfl, rfl⟩ | ⟨between, rfl, rfl⟩
  · cases between with
    | nil => simp
    | cons x between =>
      obtain rfl := hrest x (by simp)
      simp at hb
  · cases between with
    | nil => simp
    | cons x between =>
      obtain rfl := hothers x (by simp)
      simp at ha

theorem head?_joinedPairs (pairs : List (String × String)) : ∀ c ∈ (joinedPairs pairs).head?, c = '\x00' := by
  cases pairs with
  | nil => exact nofun
  | cons pair rest =>
    intro c hc
    simpa [joinedPairs, eq_comm] using hc

/-- A key and a name that end at the first separator behind them. -/
structure IsPlainPair (pair : String × String) : Prop where
  key_unit : '\x1f' ∉ pair.1.toList
  name_null : '\x00' ∉ pair.2.toList

/-- Plain keys and names can be read back. -/
theorem joinedPairs_inj {pairs others : List (String × String)} (hpairs : ∀ pair ∈ pairs, IsPlainPair pair)
    (hothers : ∀ pair ∈ others, IsPlainPair pair) (h : joinedPairs pairs = joinedPairs others) : pairs = others := by
  induction pairs generalizing others with
  | nil =>
    cases others with
    | nil => rfl
    | cons other others => simp [joinedPairs] at h
  | cons pair pairs ih =>
    cases others with
    | nil => simp [joinedPairs] at h
    | cons other others =>
      obtain ⟨key, name⟩ := pair
      obtain ⟨key', name'⟩ := other
      obtain ⟨hpair, hpairs'⟩ := List.forall_mem_cons.mp hpairs
      obtain ⟨hother, hothers'⟩ := List.forall_mem_cons.mp hothers
      simp only [joinedPairs, List.cons_append, List.append_assoc, List.cons.injEq, true_and] at h
      obtain ⟨hkey, hbehind⟩ := append_inj_of_separator hpair.key_unit hother.key_unit (by simp) (by simp) h
      obtain ⟨hname, hrest⟩ := append_inj_of_separator hpair.name_null hother.name_null (head?_joinedPairs pairs)
        (head?_joinedPairs others) (List.cons.inj hbehind).2
      obtain rfl : key = key' := String.toList_injective hkey
      obtain rfl : name = name' := String.toList_injective hname
      rw [ih hpairs' hothers' hrest]

/-- No part of the input holds the separator that ends it: no null character stands in the text or a name, and no unit
    separator in a key. -/
structure IsPlain (specText : String) (fields : List DatasetField) : Prop where
  text_null : '\x00' ∉ specText.toList
  pairs : ∀ field ∈ fields, IsPlainPair (keyAndName field)

/-- The text and the keys and names of plain inputs can be read back. -/
theorem joined_inj (h : IsPlain specText fields) (h' : IsPlain specText' fields')
    (heq : joined specText fields = joined specText' fields') :
    specText = specText' ∧ pairs fields = pairs fields' := by
  obtain ⟨htext, hpairs⟩ := append_inj_of_separator h.text_null h'.text_null (head?_joinedPairs _) (head?_joinedPairs _)
    heq
  have hplain {specText : String} {fields : List DatasetField} (h : IsPlain specText fields) :
      ∀ pair ∈ pairs fields, IsPlainPair pair := by
    intro pair hpair
    obtain ⟨field, hfield, rfl⟩ := List.mem_map.mp ((pairs_perm fields).mem_iff.mp hpair)
    exact h.pairs field hfield
  exact ⟨String.toList_injective htext, joinedPairs_inj (hplain h) (hplain h') hpairs⟩

/-! ## Fingerprints -/

theorem isOf_compute_iff : (compute specText fields).isOf specText' fields' = true ↔
    Sha256.digest (preimage specText fields) = Sha256.digest (preimage specText' fields') := by
  rw [isOf, beq_iff_eq, compute, compute, SpecFingerprint.mk.injEq]
  constructor
  · intro h
    exact hexText_inj (String.ofList_injective h)
  · intro h
    rw [h]

/-- For one text and the same keys with the same names, whatever their order, the same is digested, and the fingerprint
    of the one input is that of the other. Where no part of two inputs holds the separator that ends it, the same is
    digested for these only and, short of a collision of the digest, the fingerprint of the one is that of the other for
    these only. -/
theorem preimage_separates (specText specText' : String) (fields fields' : List DatasetField) :
    let digested := preimage specText fields
    let digested' := preimage specText' fields'
    let same := specText = specText' ∧ (fields.map keyAndName).Perm (fields'.map keyAndName)
    (same → digested = digested' ∧ (compute specText fields).isOf specText' fields' = true) ∧
      (IsPlain specText fields → IsPlain specText' fields' → (digested = digested' → same) ∧
        ((Sha256.digest digested = Sha256.digest digested' → digested = digested') →
          (compute specText fields).isOf specText' fields' = true → same)) := by
  intro digested digested' same
  constructor
  · rintro ⟨rfl, hperm⟩
    have heq : preimage specText fields = preimage specText fields' := by
      rw [preimage, preimage, pairs_eq_iff.mpr hperm]
    exact ⟨heq, isOf_compute_iff.mpr (congrArg Sha256.digest heq)⟩
  · intro h h'
    have hsame : digested = digested' → same := by
      intro heq
      have hjoined : joined specText fields = joined specText' fields' := by
        apply String.ofList_injective
        apply bytes_inj
        rw [← preimage_eq, ← preimage_eq]
        exact heq
      obtain ⟨htext, hpairs⟩ := joined_inj h h' hjoined
      exact ⟨htext, pairs_eq_iff.mp hpairs⟩
    exact ⟨hsame, fun hcollision hmatches => hsame (hcollision (isOf_compute_iff.mp hmatches))⟩

/-- Two fields in either order, and each without the other; a name may hold a unit separator. -/
theorem preimage_separates_sales :
    let sales : DatasetField := ⟨"s", "Sales €", .numeric, .measure, false⟩
    let cost : DatasetField := ⟨"c", "Cost\x1f", .numeric, .measure, false⟩
    preimage "\x7b\x7d" [sales, cost] = preimage "\x7b\x7d" [cost, sales] ∧ IsPlain "\x7b\x7d" [sales] ∧
      IsPlain "\x7b\x7d" [cost] ∧ preimage "\x7b\x7d" [sales] ≠ preimage "\x7b\x7d" [cost] := by
  intro sales cost
  have hsales : IsPlain "\x7b\x7d" [sales] :=
    ⟨by decide, List.forall_mem_singleton.mpr ⟨by decide, by decide⟩⟩
  have hcost : IsPlain "\x7b\x7d" [cost] :=
    ⟨by decide, List.forall_mem_singleton.mpr ⟨by decide, by decide⟩⟩
  have hboth := preimage_separates "\x7b\x7d" "\x7b\x7d" [sales, cost] [cost, sales]
  refine ⟨(hboth.1 ⟨rfl, .swap _ _ _⟩).1, hsales, hcost, fun heq => ?_⟩
  obtain ⟨-, hperm⟩ := ((preimage_separates _ _ _ _).2 hsales hcost).1 heq
  exact absurd hperm (by decide)

/-- A unit separator is as good in a key as in a name: the end of the one is taken for the beginning of the other. -/
theorem preimage_shifted :
    let fields : List DatasetField := [⟨"a", "b\x1fc", .text, .column, false⟩]
    let fields' : List DatasetField := [⟨"a\x1fb", "c", .text, .column, false⟩]
    preimage "\x7b\x7d" fields = preimage "\x7b\x7d" fields' ∧
      ¬ (fields.map keyAndName).Perm (fields'.map keyAndName) ∧
      (compute "\x7b\x7d" fields).isOf "\x7b\x7d" fields' = true := by
  intro fields fields'
  have hpairs : pairs fields = [("a", "b\x1fc")] := List.mergeSort_singleton _
  have hpairs' : pairs fields' = [("a\x1fb", "c")] := List.mergeSort_singleton _
  have heq : preimage "\x7b\x7d" fields = preimage "\x7b\x7d" fields' := by
    rw [preimage_eq, preimage_eq, joined, joined, hpairs, hpairs']
    rfl
  refine ⟨heq, by decide, ?_⟩
  rw [isOf_compute_iff, heq]

end SpecFingerprint

end FieldRemap
