/-
  FieldRemap.Proofs.Registry — what a registry holds, and its tokens.

  Putting an entry in changes what is found for its own key only (`get?_insert`), so a registry made
  of a list holds for each key the last entry of the list that has a match (`get?_ofEntries`). It
  holds entries of the list only (`mem_of_mem_ofEntries`), and all of them when their keys differ
  (`mem_ofEntries`). Where no two entries have one token, a token finds its entry
  (`findByPlaceholder?_eq`), and the tokens in order are those of the entries by token
  (`placeholders_eq`).
-/

import FieldRemap.Proofs.TokenText
import FieldRemap.Registry

namespace FieldRemap

/-! ## Building -/

theorem mem_insertByKey_self (entry : TrackedEntry) (entries : List TrackedEntry) :
    entry ∈ insertByKey entry entries := by
  induction entries with
  | nil => exact List.mem_cons_self
  | cons other rest ih =>
    unfold insertByKey
    split
    · exact List.mem_cons_self
    · split
      · exact List.mem_cons_self
      · exact List.mem_cons_of_mem _ ih

theorem mem_insertByKey_of_ne {entry x : TrackedEntry} {entries : List TrackedEntry} (hx : x ∈ entries)
    (hne : x.fieldKey ≠ entry.fieldKey) : x ∈ insertByKey entry entries := by
  induction entries with
  | nil => cases hx
  | cons other rest ih =>
    unfold insertByKey
    split
    · exact List.mem_cons_of_mem _ hx
    · split
      · next heq =>
        rcases List.mem_cons.mp hx with rfl | hx
        · exact absurd heq.symm hne
        · exact List.mem_cons_of_mem _ hx
      · rcases List.mem_cons.mp hx with rfl | hx
        · exact List.mem_cons_self
        · exact List.mem_cons_of_mem _ (ih hx)

theorem find?_insertByKey_self (entry : TrackedEntry) (entries : List TrackedEntry) :
    (insertByKey entry entries).find? (·.fieldKey == entry.fieldKey) = some entry := by
  induction entries with
  | nil => simp [insertByKey]
  | cons other rest ih =>
    unfold insertByKey
    split
    · simp
    · split
      · simp
      · next hne => simp [Ne.symm hne, ih]

theorem find?_insertByKey_of_ne {entry : TrackedEntry} {key : String} (hne : entry.fieldKey ≠ key)
    (entries : List TrackedEntry) :
    (insertByKey entry entries).find? (·.fieldKey == key) = entries.find? (·.fieldKey == key) := by
  induction entries with
  | nil => simp [insertByKey, hne]
  | cons other rest ih =>
    unfold insertByKey
    split
    · simp [hne]
    · split
      · next heq =>
        have hother : other.fieldKey ≠ key := heq ▸ hne
        simp [hne, hother]
      · rw [List.find?_cons, List.find?_cons, ih]

/-- Whether an entry is one to be held under a key: it has that key, and a match. -/
def TrackedEntry.isFor (entry : TrackedEntry) (key : String) : Bool :=
  entry.fieldKey == key && decide (0 < entry.matchCount)

namespace Registry

variable {registry : Registry} {entry x : TrackedEntry} {entries : List TrackedEntry} {token : Placeholder}

theorem entries_insert (h : 0 < entry.matchCount) :
    (registry.insert entry).entries = insertByKey entry registry.entries := by
  simp [insert, insert?, h]

/-- Exactly an entry without a match is refused. -/
theorem insert?_eq_none : registry.insert? entry = none ↔ entry.matchCount = 0 := by
  unfold insert?
  split
  · next h => exact iff_of_false nofun (Nat.ne_of_gt h)
  · next h => exact iff_of_true rfl (Nat.eq_zero_of_not_pos h)

theorem insert_of_refused (h : registry.insert? entry = none) : registry.insert entry = registry := by
  rw [insert, h, Option.getD_none]

theorem mem_of_mem_insert (h : x ∈ (registry.insert entry).entries) : x = entry ∨ x ∈ registry.entries := by
  by_cases hm : 0 < entry.matchCount
  · rw [entries_insert hm] at h
    exact mem_insertByKey h
  · rw [insert_of_refused (insert?_eq_none.mpr (Nat.eq_zero_of_not_pos hm))] at h
    exact .inr h

theorem get?_insert (registry : Registry) (entry : TrackedEntry) (key : String) :
    (registry.insert entry).get? key = if entry.isFor key then some entry else registry.get? key := by
  by_cases hmatch : 0 < entry.matchCount
  · rw [get?, entries_insert hmatch]
    by_cases hkey : entry.fieldKey = key
    · have hfor : entry.isFor key = true := by simp [TrackedEntry.isFor, hkey, hmatch]
      rw [if_pos hfor, ← hkey, find?_insertByKey_self]
    · have hfor : ¬ entry.isFor key = true := by simp [TrackedEntry.isFor, hkey]
      rw [if_neg hfor, find?_insertByKey_of_ne hkey, get?]
  · have hfor : ¬ entry.isFor key = true := by simp [TrackedEntry.isFor, hmatch]
    rw [insert_of_refused (insert?_eq_none.mpr (Nat.eq_zero_of_not_pos hmatch)), if_neg hfor]

/-- The last of the entries put in that are for a key is found for it, and without one what was found before. -/
theorem get?_foldl_insert (registry : Registry) (entries : List TrackedEntry) (key : String) :
    (entries.foldl insert registry).get? key = (entries.reverse.find? (·.isFor key)).or (registry.get? key) := by
  induction entries generalizing registry with
  | nil => rfl
  | cons entry rest ih =>
    rw [List.foldl_cons, ih, get?_insert, List.reverse_cons, List.find?_append, Option.or_assoc]
    congr 1
    by_cases hfor : entry.isFor key = true
    · simp [hfor]
    · simp [hfor]

theorem get?_ofEntries (entries : List TrackedEntry) (key : String) :
    (ofEntries entries).get? key = entries.reverse.find? (·.isFor key) := by
  rw [ofEntries, get?_foldl_insert]
  exact Option.or_none

theorem mem_of_mem_foldl (h : x ∈ (entries.foldl insert registry).entries) : x ∈ registry.entries ∨ x ∈ entries := by
  induction entries generalizing registry with
  | nil => exact .inl h
  | cons entry rest ih =>
    rcases ih h with h | h
    · rcases mem_of_mem_insert h with rfl | h
      · exact .inr List.mem_cons_self
      · exact .inl h
    · exact .inr (List.mem_cons_of_mem _ h)

theorem mem_of_mem_ofEntries (h : x ∈ (ofEntries entries).entries) : x ∈ entries :=
  (mem_of_mem_foldl h).resolve_left List.not_mem_nil

theorem mem_foldl (hkeys : entries.Pairwise (fun a b => a.fieldKey ≠ b.fieldKey))
    (hmatched : ∀ entry ∈ entries, 0 < entry.matchCount)
    (h : x ∈ entries ∨ x ∈ registry.entries ∧ ∀ entry ∈ entries, x.fieldKey ≠ entry.fieldKey) :
    x ∈ (entries.foldl insert registry).entries := by
  induction entries generalizing registry with
  | nil => exact (h.resolve_left List.not_mem_nil).1
  | cons entry rest ih =>
    obtain ⟨hhead, hrest⟩ := List.pairwise_cons.mp hkeys
    obtain ⟨hm, hms⟩ := List.forall_mem_cons.mp hmatched
    refine ih hrest hms ?_
    rw [entries_insert hm]
    rcases h with h | ⟨hx, hne⟩
    · rcases List.mem_cons.mp h with rfl | h
      · exact .inr ⟨mem_insertByKey_self _ _, hhead⟩
      · exact .inl h
    · obtain ⟨hne, hnes⟩ := List.forall_mem_cons.mp hne
      exact .inr ⟨mem_insertByKey_of_ne hx hne, hnes⟩

theorem mem_ofEntries (hkeys : entries.Pairwise (fun a b => a.fieldKey ≠ b.fieldKey))
    (hmatched : ∀ entry ∈ entries, 0 < entry.matchCount) (h : x ∈ entries) : x ∈ (ofEntries entries).entries :=
  mem_foldl hkeys hmatched (.inl h)

/-- Entries of different keys are those of the registry they make, which orders them by key. -/
theorem ofEntries_perm_self (hkeys : entries.Pairwise (fun a b => a.fieldKey ≠ b.fieldKey))
    (hmatched : ∀ entry ∈ entries, 0 < entry.matchCount) : (ofEntries entries).entries.Perm entries := by
  have hnodup : entries.Nodup := hkeys.imp fun hne => by rintro rfl; exact hne rfl
  have hnodup' : (ofEntries entries).entries.Nodup :=
    (ofEntries entries).ascending.imp fun hlt => by rintro rfl; exact String.lt_irrefl _ hlt
  exact (List.perm_ext_iff_of_nodup hnodup' hnodup).mpr fun x =>
    ⟨mem_of_mem_ofEntries, mem_ofEntries hkeys hmatched⟩

/-- The order of entries of different keys makes no difference to the registry. -/
theorem ofEntries_perm {others : List TrackedEntry} (hperm : others.Perm entries)
    (hkeys : entries.Pairwise (fun a b => a.fieldKey ≠ b.fieldKey))
    (hmatched : ∀ entry ∈ entries, 0 < entry.matchCount) :
    (ofEntries others).entries = (ofEntries entries).entries := by
  have hkeys' : others.Pairwise (fun a b => a.fieldKey ≠ b.fieldKey) := hperm.symm.pairwise hkeys Ne.symm
  have hmatched' : ∀ entry ∈ others, 0 < entry.matchCount := fun entry h => hmatched entry (hperm.mem_iff.mp h)
  refine List.Perm.eq_of_pairwise (fun a b _ _ hab hba => absurd hba (String.lt_asymm hab))
    (ofEntries others).ascending (ofEntries entries).ascending ?_
  exact (ofEntries_perm_self hkeys' hmatched').trans (hperm.trans (ofEntries_perm_self hkeys hmatched).symm)

/-- A registry has one entry for a key. -/
theorem eq_of_fieldKey_eq {a b : TrackedEntry} (ha : a ∈ registry.entries) (hb : b ∈ registry.entries)
    (h : a.fieldKey = b.fieldKey) : a = b := by
  refine eq_of_not_rel registry.ascending ha hb ?_ ?_ <;>
  · rw [h]
    exact String.lt_irrefl _

/-! ## Tokens -/

theorem mem_byPlaceholder : (token, entry) ∈ registry.byPlaceholder ↔
    entry ∈ registry.entries ∧ entry.placeholder = some token := by
  simp only [byPlaceholder, List.mem_mergeSort, List.mem_filterMap, Option.map_eq_some_iff, Prod.mk.injEq]
  constructor
  · intro h
    obtain ⟨e, he, t, ht, rfl, rfl⟩ := h
    exact ⟨he, ht⟩
  · intro h
    obtain ⟨he, ht⟩ := h
    exact ⟨entry, he, token, ht, rfl, rfl⟩

theorem pairwise_byPlaceholder (registry : Registry) : registry.byPlaceholder.Pairwise
    (fun a b => a.1.le b.1 = true) :=
  List.pairwise_mergeSort (fun a b c => Placeholder.le_trans a.1 b.1 c.1) (fun a b => Placeholder.le_total a.1 b.1) _

/-- Entries whose tokens ascend with their keys stay as they are. -/
theorem byPlaceholder_of_pairwise
    (h : (registry.entries.filterMap fun entry => entry.placeholder.map (·, entry)).Pairwise
      (fun a b => a.1.le b.1 = true)) :
    registry.byPlaceholder = registry.entries.filterMap fun entry => entry.placeholder.map (·, entry) := by
  rw [byPlaceholder, List.mergeSort_of_pairwise h]

def DistinctTokens (registry : Registry) : Prop :=
  ∀ a ∈ registry.entries, ∀ b ∈ registry.entries, ∀ token,
    a.placeholder = some token → b.placeholder = some token → a = b

theorem findByPlaceholder?_eq (hdistinct : registry.DistinctTokens)
    (h : (token, entry) ∈ registry.byPlaceholder) :
    registry.findByPlaceholder? token.text = some entry := by
  obtain ⟨hmem, htoken⟩ := mem_byPlaceholder.mp h
  unfold findByPlaceholder?
  obtain ⟨found, hfound⟩ : ∃ found,
      registry.entries.find? (fun e => e.placeholder.any (·.text == token.text)) = some found :=
    Option.isSome_iff_exists.mp (List.find?_isSome.mpr ⟨entry, hmem, by simp [htoken]⟩)
  rw [hfound]
  have hhas := List.find?_some hfound
  obtain ⟨t, ht, htext⟩ := (Option.any_eq_true _ _).mp hhas
  obtain rfl : t = token := Placeholder.text_inj (beq_iff_eq.mp htext)
  rw [hdistinct found (List.mem_of_find?_eq_some hfound) entry hmem t ht htoken]

/-- The tokens in use are those of the entries by token. -/
theorem placeholders_eq (hdistinct : registry.DistinctTokens) :
    registry.placeholders = registry.byPlaceholder.map (·.1) := by
  have hsorted : (registry.entries.filterMap (·.placeholder)).mergeSort Placeholder.le =
      registry.byPlaceholder.map (·.1) := by
    have hmap := @List.map_mergeSort _ _ (fun a b => a.1.le b.1) Placeholder.le (·.1)
      (registry.entries.filterMap fun entry => entry.placeholder.map (·, entry)) fun _ _ _ _ => rfl
    rw [byPlaceholder, hmap, List.map_filterMap]
    congr 2
    funext entry
    cases entry.placeholder <;> rfl
  have hnodup : (registry.entries.filterMap (·.placeholder)).Nodup := by
    refine List.pairwise_filterMap.mpr (registry.ascending.imp_of_mem fun {a b} ha hb hlt t ht t' ht' heq => ?_)
    rw [hdistinct a ha b hb t ht (heq ▸ ht')] at hlt
    exact String.lt_irrefl _ hlt
  have hnodup' := (List.mergeSort_perm _ Placeholder.le).nodup_iff.mpr hnodup
  rw [placeholders, Placeholder.sortDistinct, eraseReps_of_nodup hnodup', hsorted]

end Registry

end FieldRemap
