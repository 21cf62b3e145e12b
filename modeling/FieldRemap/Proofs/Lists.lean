/-
  FieldRemap.Proofs.Lists — facts about lists that several modules use.
-/

import Mathlib.Data.List.Infix
import Mathlib.Data.List.Nodup
import Mathlib.Data.List.Perm.Subperm

namespace FieldRemap

/-! ## Members and order -/

/-- What holds of every member is checked one by one. -/
theorem forall_mem_of_all {α : Type} {p : α → Prop} [DecidablePred p] {l : List α}
    (h : l.all (fun x => p x) = true) :
    ∀ x ∈ l, p x := by
  simpa using h

/-- Where no two members have one key, a key finds the member that has it. -/
theorem find?_of_nodup_map {α κ : Type} [BEq κ] [LawfulBEq κ] {key : α → κ} {l : List α} (h : (l.map key).Nodup)
    {x : α} (hx : x ∈ l) : l.find? (key · == key x) = some x := by
  obtain ⟨found, hfound⟩ : ∃ found, l.find? (key · == key x) = some found :=
    Option.isSome_iff_exists.mp (List.find?_isSome.mpr ⟨x, hx, beq_self_eq_true _⟩)
  have hkey : key found = key x := by simpa using List.find?_some hfound
  rw [hfound, List.inj_on_of_nodup_map h (List.mem_of_find?_eq_some hfound) hx hkey]

/-- Members of a list that are not related in the order of the list are one. -/
theorem eq_of_not_rel {α : Type} {r : α → α → Prop} {l : List α} (h : l.Pairwise r) {x y : α} (hx : x ∈ l)
    (hy : y ∈ l)
    (hxy : ¬ r x y) (hyx : ¬ r y x) : x = y := by
  induction h with
  | nil => cases hx
  | cons hhead _ ih =>
    rcases List.mem_cons.mp hx with hx | hx <;> rcases List.mem_cons.mp hy with hy | hy
    · exact hx.trans hy.symm
    · exact absurd (hx ▸ hhead y hy) hxy
    · exact absurd (hy ▸ hhead x hx) hyx
    · exact ih hx hy

/-- Strictly ascending lists of the same members are equal. -/
theorem eq_of_mem_iff {α : Type} {f : α → Nat} {as bs : List α} (has : as.Pairwise (f · < f ·))
    (hbs : bs.Pairwise (f · < f ·)) (h : ∀ x, x ∈ as ↔ x ∈ bs) : as = bs := by
  have nodup {xs : List α} (hxs : xs.Pairwise (f · < f ·)) : xs.Nodup :=
    hxs.imp fun hlt => by intro he; subst he; omega
  have hperm : as.Perm bs := (List.perm_ext_iff_of_nodup (nodup has) (nodup hbs)).mpr h
  refine List.Perm.eq_of_pairwise (fun a b _ _ hab hba => ?_) has hbs hperm
  omega

theorem length_le_of_injective {α β : Type} {xs : List α} {ys : List β} {f : α → β} (hf : Function.Injective f)
    (hxs : xs.Nodup) (h : ∀ x ∈ xs, f x ∈ ys) : xs.length ≤ ys.length := by
  have hsub : xs.map f ⊆ ys := fun y hy => by
    obtain ⟨x, hx, rfl⟩ := List.mem_map.mp hy
    exact h x hx
  simpa using (List.subperm_of_subset (List.Nodup.map hf hxs) hsub).length_le

theorem eraseReps_loop {α : Type} [BEq α] [LawfulBEq α] {a : α} {as acc : List α} (h : (a :: as).Nodup) :
    List.eraseRepsBy.loop (· == ·) a as acc = acc.reverse ++ a :: as := by
  induction as generalizing a acc with
  | nil => simp [List.eraseRepsBy.loop]
  | cons b as ih =>
    have hne : (a == b) = false := by
      rw [beq_eq_false_iff_ne]
      intro hab
      exact (List.nodup_cons.mp h).1 (hab ▸ List.mem_cons_self)
    simp [List.eraseRepsBy.loop, hne, ih (List.nodup_cons.mp h).2]

theorem eraseReps_of_nodup {α : Type} [BEq α] [LawfulBEq α] {as : List α}
    (h : as.Nodup) : as.eraseReps = as := by
  cases as with
  | nil => rfl
  | cons a as => exact eraseReps_loop h

/-! ## Places -/

theorem flatMap_zipIdx {α β : Type} (l : List α) (f : α → List β) :
    l.zipIdx.flatMap (fun x => f x.1) = l.flatMap f := by
  have := congrArg (List.flatMap f) (List.zipIdx_map_fst 0 l)
  rwa [List.flatMap_map] at this

theorem filterMap_zipIdx {α β : Type} (l : List α) (f : α → Option β) :
    l.zipIdx.filterMap (fun x => f x.1) = l.filterMap f := by
  have := congrArg (List.filterMap f) (List.zipIdx_map_fst 0 l)
  rwa [List.filterMap_map] at this

/-! ## Beginnings -/

/-- A list that ends in an element and goes on past a beginning holds the beginning before it. -/
theorem prefix_of_concat_eq {α : Type} {w d z : List α} {c : α} (hz : z ≠ []) (he : w ++ [c] = d ++ z) :
    ∃ z', z = z' ++ [c] ∧ w = d ++ z' := by
  rcases List.eq_nil_or_concat z with rfl | ⟨z', e, rfl⟩
  · exact absurd rfl hz
  · have he : w ++ [c] = (d ++ z') ++ [e] := by simpa using he
    obtain ⟨hw, hc⟩ := List.append_inj' he rfl
    obtain rfl : c = e := by simpa using hc
    exact ⟨z', by simp, hw⟩

/-- Elements of which none is written at the beginning of another can be read back. -/
theorem flatMap_inj {α β : Type} {f : α → List β} (hne : ∀ c, f c ≠ []) (hf : ∀ c d, f c <+: f d → c = d)
    {a b : List α} (h : a.flatMap f = b.flatMap f) : a = b := by
  induction a generalizing b with
  | nil =>
    cases b with
    | nil => rfl
    | cons d b => exact absurd (List.append_eq_nil_iff.mp h.symm).1 (hne d)
  | cons c a ih =>
    cases b with
    | nil => exact absurd (List.append_eq_nil_iff.mp h).1 (hne c)
    | cons d b =>
      simp only [List.flatMap_cons] at h
      have hcd : c = d := by
        rcases List.append_eq_append_iff.mp h with ⟨t, ht, _⟩ | ⟨t, ht, _⟩
        · exact hf c d ⟨t, ht.symm⟩
        · exact (hf d c ⟨t, ht.symm⟩).symm
      subst hcd
      rw [ih (List.append_cancel_left h)]

/-! ## Byte strings -/

/-- The bytes that are left to be listed stand behind those that are. -/
theorem loop_eq_append_drop (bytes : ByteArray) (i : Nat) (listed : List UInt8) :
    ByteArray.toList.loop bytes i listed = listed.reverse ++ bytes.data.toList.drop i := by
  fun_induction ByteArray.toList.loop bytes i listed with
  | case1 i listed h ih =>
    have hi : i < bytes.data.toList.length := h
    have hget : bytes.get! i = bytes.data.toList[i] := by simp [ByteArray.get!, h]
    rw [ih, List.drop_eq_getElem_cons hi, hget]
    simp
  | case2 i listed h =>
    have hi : bytes.data.toList.length ≤ i := Nat.le_of_not_lt h
    rw [List.drop_eq_nil_of_le hi, List.append_nil]

theorem toList_eq_data (bytes : ByteArray) : bytes.toList = bytes.data.toList :=
  loop_eq_append_drop bytes 0 []

end FieldRemap
