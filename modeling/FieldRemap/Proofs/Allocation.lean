/-
  FieldRemap.Proofs.Allocation — the tokens that are given out.

  The index the allocator gives out is free (`isFree_leastFree`): among the indices it looks at
  fewer are taken, named or written in the text than there are, since no two tokens are written
  at one place. From there on each step only takes indices, so the tokens kept and allocated
  for a list of entries are of different indices and collide with nothing
  (`given_withTokens`), and the entries that need a token have one (`isSome_withTokens`).
-/

import FieldRemap.Proofs.TokenText
import FieldRemap.Track

namespace FieldRemap

namespace Allocator

/-! ## A free index -/

/-- Different indices whose tokens occur in a text take a place of it each. -/
theorem length_le_of_occursIn {indices : List Nat} {text : List Char} (hnodup : indices.Nodup)
    (h : ∀ i ∈ indices, occursIn (Placeholder.ofIndex i).chars text = true) : indices.length ≤ text.length := by
  induction text generalizing indices with
  | nil =>
    cases indices with
    | nil => exact Nat.le_refl _
    | cons i _ => exact absurd (h i List.mem_cons_self) (by simp [occursIn, Placeholder.chars])
  | cons c text ih =>
    let here : Nat → Bool := fun i => (Placeholder.ofIndex i).chars.isPrefixOf (c :: text)
    have hhere : (indices.filter here).length ≤ 1 := by
      have hmem : ∀ i ∈ indices.filter here, (Placeholder.ofIndex i).chars <+: c :: text := fun i hi =>
        List.isPrefixOf_iff_prefix.mp (List.mem_filter.mp hi).2
      have hdistinct := hnodup.filter here
      generalize indices.filter here = found at hmem hdistinct
      cases found with
      | nil => exact Nat.zero_le 1
      | cons i found =>
        cases found with
        | nil => exact Nat.le_refl 1
        | cons j _ =>
          have hij : i = j := Placeholder.ofIndex_inj (Placeholder.eq_of_isPrefix (hmem i (by simp)) (hmem j (by simp)))
          exact absurd hij ((List.pairwise_cons.mp hdistinct).1 j List.mem_cons_self)
    have hbehind : (indices.filter fun i => !here i).length ≤ text.length := by
      apply ih (hnodup.filter _)
      intro i hi
      obtain ⟨hi, hnot⟩ := List.mem_filter.mp hi
      have := h i hi
      rw [Bool.not_eq_true'] at hnot
      rwa [occursIn, show (Placeholder.ofIndex i).chars.isPrefixOf (c :: text) = false from hnot, Bool.false_or] at this
    have := List.length_eq_length_filter_add (l := indices) here
    simp only [List.length_cons]
    omega

theorem length_le_searchBound (allocator : Allocator) {indices : List Nat} (hnodup : indices.Nodup)
    (h : ∀ i ∈ indices, allocator.isFree i = false) : indices.length ≤ allocator.searchBound := by
  let isTaken : Nat → Bool := fun i => allocator.taken.contains i
  let isName : Nat → Bool := fun i => allocator.names.contains (Placeholder.ofIndex i).text
  have htaken : (indices.filter isTaken).length ≤ allocator.taken.length :=
    length_le_of_injective (f := id) Function.injective_id (hnodup.filter _) fun i hi =>
      List.contains_iff_mem.mp (List.mem_filter.mp hi).2
  have hnames : ((indices.filter fun i => !isTaken i).filter isName).length ≤ allocator.names.length :=
    length_le_of_injective (fun i j hij => Placeholder.ofIndex_inj (Placeholder.text_inj hij))
      ((hnodup.filter _).filter _)
      fun i hi => List.contains_iff_mem.mp (List.mem_filter.mp hi).2
  have htext : ((indices.filter fun i => !isTaken i).filter fun i => !isName i).length ≤ allocator.text.length := by
    apply length_le_of_occursIn ((hnodup.filter _).filter _)
    intro i hi
    obtain ⟨hi, hname⟩ := List.mem_filter.mp hi
    obtain ⟨hi, hnot⟩ := List.mem_filter.mp hi
    have := h i hi
    simp only [isFree, collides, Bool.and_eq_false_iff, Bool.not_eq_false', Bool.or_eq_true] at this
    rcases this with h | h | h
    · exact absurd (List.contains_iff_mem.mp h) (by simpa [isTaken] using hnot)
    · exact absurd (List.contains_iff_mem.mp h) (by simpa [isName] using hname)
    · exact h
  have h1 := List.length_eq_length_filter_add (l := indices) isTaken
  have h2 := List.length_eq_length_filter_add (l := indices.filter fun i => !isTaken i) isName
  unfold searchBound
  omega

theorem firstFrom_passes {test : Nat → Bool} {bound index : Nat}
    (h : ∃ i, index ≤ i ∧ i ≤ index + bound ∧ test i = true) : test (firstFrom test bound index) = true := by
  induction bound generalizing index with
  | zero =>
    obtain ⟨i, hle, hge, hi⟩ := h
    obtain rfl : i = index := by omega
    exact hi
  | succ bound ih =>
    unfold firstFrom
    split
    · assumption
    · next hnot =>
      refine ih ?_
      obtain ⟨i, hle, hge, hi⟩ := h
      have : i ≠ index := by intro he; subst he; exact hnot hi
      exact ⟨i, by omega, by omega, hi⟩

/-- The index given out is free. -/
theorem isFree_leastFree (allocator : Allocator) : allocator.isFree allocator.leastFree = true := by
  refine firstFrom_passes (Classical.byContradiction fun hnone => ?_)
  have hall : ∀ i ∈ List.range' allocator.next (allocator.searchBound + 1), allocator.isFree i = false := by
    intro i hi
    obtain ⟨hge, hlt⟩ := List.mem_range'_1.mp hi
    exact Bool.eq_false_iff.mpr fun hfree => hnone ⟨i, hge, by omega, hfree⟩
  have := allocator.length_le_searchBound List.nodup_range' hall
  rw [List.length_range'] at this
  omega

end Allocator

/-! ## Tokens for a list of entries -/

namespace TrackedEntry

def bare (entry : TrackedEntry) : TrackedEntry :=
  { entry with placeholder := none }

def Distinct (a b : TrackedEntry) : Prop :=
  ∀ token ∈ a.placeholder, ∀ token' ∈ b.placeholder, token.index ≠ token'.index

end TrackedEntry

namespace Track

open TrackedEntry

/-- What a list of entries has been given: tokens of different indices that collide with nothing. -/
structure Given (allocator : Allocator) (entries : List TrackedEntry) : Prop where
  distinct : entries.Pairwise Distinct
  clear : ∀ entry ∈ entries, ∀ token ∈ entry.placeholder, allocator.collides token = false

theorem reserve?_eq_some {allocator allocator' : Allocator} {token : Placeholder} :
    allocator.reserve? token = some allocator' ↔ token.index ∉ allocator.taken ∧ allocator.collides token = false ∧
      allocator' = { allocator with taken := token.index :: allocator.taken } := by
  unfold Allocator.reserve?
  split
  · next h =>
    simp only [Bool.or_eq_true, List.contains_iff_mem] at h
    simp only [reduceCtorEq, false_iff]
    intro h'
    obtain ⟨hnot, hclear, -⟩ := h'
    rcases h with h | h
    · exact hnot h
    · rw [hclear] at h; cases h
  · next h =>
    simp only [Bool.or_eq_true, List.contains_iff_mem, not_or, Bool.not_eq_true] at h
    simp only [h.1, h.2, Option.some.injEq, not_false_eq_true, true_and]
    exact eq_comm

/-- What claiming makes of an entry and the allocator: the token it had is taken for it, or both stay as they are. -/
inductive Claims (previous : Registry) (allocator : Allocator) (entry : TrackedEntry) : TrackedEntry → Allocator → Prop
  | stays : (∀ token, earlierToken? previous entry = some token →
      ¬ (token.index ∉ allocator.taken ∧ allocator.collides token = false)) →
      Claims previous allocator entry entry allocator
  | keeps {token : Placeholder} : earlierToken? previous entry = some token → token.index ∉ allocator.taken →
      allocator.collides token = false → Claims previous allocator entry { entry with placeholder := some token }
        { allocator with taken := token.index :: allocator.taken }

/-- The first entry claims its token, and the others claim theirs of what is left. -/
theorem keepTokens_cons (previous : Registry) (allocator : Allocator) (entry : TrackedEntry)
    (rest : List TrackedEntry) : ∃ entry' allocator', Claims previous allocator entry entry' allocator' ∧
      (keepTokens previous allocator (entry :: rest)).1 = entry' :: (keepTokens previous allocator' rest).1 ∧
      (keepTokens previous allocator (entry :: rest)).2.2 = (keepTokens previous allocator' rest).2.2 := by
  rw [keepTokens]
  split
  · next hnone =>
    refine ⟨entry, allocator, .stays ?_, rfl, rfl⟩
    intro token htoken
    rw [hnone] at htoken
    cases htoken
  · next token htoken =>
    split
    · next allocator' hreserve =>
      obtain ⟨hnot, hclear, rfl⟩ := reserve?_eq_some.mp hreserve
      exact ⟨_, _, .keeps htoken hnot hclear, rfl, rfl⟩
    · next hreserve =>
      refine ⟨entry, allocator, .stays ?_, rfl, rfl⟩
      rintro other hother ⟨hnot, hclear⟩
      obtain rfl : token = other := Option.some.inj (htoken.symm.trans hother)
      rw [reserve?_eq_some.mpr ⟨hnot, hclear, rfl⟩] at hreserve
      cases hreserve

/-- Keeping tokens leaves the entries as they are but for their tokens. -/
theorem bare_keepTokens (previous : Registry) (allocator : Allocator) (entries : List TrackedEntry) :
    (keepTokens previous allocator entries).1.map bare = entries.map bare := by
  induction entries generalizing allocator with
  | nil => rfl
  | cons entry rest ih =>
    obtain ⟨entry', allocator', hclaims, hentries, -⟩ := keepTokens_cons previous allocator entry rest
    rw [hentries, List.map_cons, List.map_cons, ih]
    cases hclaims <;> rfl

theorem bare_allocateTokens (allocator : Allocator) (entries : List TrackedEntry) :
    (allocateTokens allocator entries).map bare = entries.map bare := by
  induction entries generalizing allocator with
  | nil => rfl
  | cons entry rest ih =>
    unfold allocateTokens
    split <;> simp [ih, bare]

structure Claimed (before after : Allocator) (entries : List TrackedEntry) : Prop where
  text : after.text = before.text
  names : after.names = before.names
  grows : ∀ i ∈ before.taken, i ∈ after.taken
  given : Given before entries
  taken : ∀ entry ∈ entries, ∀ token ∈ entry.placeholder, token.index ∈ after.taken ∧ token.index ∉ before.taken

namespace Claimed

variable {before after : Allocator} {entries : List TrackedEntry} {entry : TrackedEntry}

theorem cons_bare (h : Claimed before after entries) (hnone : entry.placeholder = none) :
    Claimed before after (entry :: entries) := by
  have hno : ∀ token, token ∉ entry.placeholder := by simp [hnone]
  refine ⟨h.text, h.names, h.grows, ⟨?_, ?_⟩, ?_⟩
  · exact List.pairwise_cons.mpr ⟨fun _ _ token ht => absurd ht (hno token), h.given.distinct⟩
  · exact List.forall_mem_cons.mpr ⟨fun token ht => absurd ht (hno token), h.given.clear⟩
  · exact List.forall_mem_cons.mpr ⟨fun token ht => absurd ht (hno token), h.taken⟩

theorem cons_token {token : Placeholder} (hnot : token.index ∉ before.taken)
    (hclear : before.collides token = false)
    (h : Claimed { before with taken := token.index :: before.taken } after entries) :
    Claimed before after ({ entry with placeholder := some token } :: entries) := by
  refine ⟨h.text, h.names, fun i hi => h.grows i (List.mem_cons_of_mem _ hi), ⟨?_, ?_⟩, ?_⟩
  · refine List.pairwise_cons.mpr ⟨fun other hother t ht t' ht' hindex => ?_, h.given.distinct⟩
    obtain rfl : token = t := by simpa using ht
    exact (h.taken other hother t' ht').2 (hindex ▸ List.mem_cons_self)
  · refine List.forall_mem_cons.mpr ⟨fun t ht => ?_, h.given.clear⟩
    obtain rfl : token = t := by simpa using ht
    exact hclear
  · refine List.forall_mem_cons.mpr ⟨fun t ht => ?_, fun other hother t ht => ?_⟩
    · obtain rfl : token = t := by simpa using ht
      exact ⟨h.grows _ List.mem_cons_self, hnot⟩
    · obtain ⟨hin, hout⟩ := h.taken other hother t ht
      exact ⟨hin, fun hmem => hout (List.mem_cons_of_mem _ hmem)⟩

end Claimed

theorem claimed_keepTokens {previous : Registry} {allocator : Allocator} {entries : List TrackedEntry}
    (hnone : ∀ entry ∈ entries, entry.placeholder = none) :
    Claimed allocator (keepTokens previous allocator entries).2.2 (keepTokens previous allocator entries).1 := by
  induction entries generalizing allocator with
  | nil => exact ⟨rfl, rfl, fun _ h => h, ⟨.nil, by simp [keepTokens]⟩, by simp [keepTokens]⟩
  | cons entry rest ih =>
    obtain ⟨hentry, hrest⟩ := List.forall_mem_cons.mp hnone
    obtain ⟨entry', allocator', hclaims, hentries, hafter⟩ := keepTokens_cons previous allocator entry rest
    rw [hentries, hafter]
    cases hclaims with
    | stays => exact (ih hrest).cons_bare hentry
    | keeps _ hnot hclear => exact (ih hrest).cons_token hnot hclear

/-- Allocating tokens keeps those that were given before, and gives others only of free indices. -/
theorem given_allocateTokens {allocator : Allocator} {entries : List TrackedEntry}
    (hgiven : Given allocator entries)
    (htaken : ∀ entry ∈ entries, ∀ token ∈ entry.placeholder, token.index ∈ allocator.taken) :
    Given allocator (allocateTokens allocator entries) ∧
      ∀ entry ∈ allocateTokens allocator entries, ∀ token ∈ entry.placeholder,
        token.index ∈ allocator.taken → ∃ other ∈ entries, token ∈ other.placeholder := by
  induction entries generalizing allocator with
  | nil => exact ⟨⟨.nil, by simp [allocateTokens]⟩, by simp [allocateTokens]⟩
  | cons entry rest ih =>
    obtain ⟨hhead, hpairwise⟩ := List.pairwise_cons.mp hgiven.distinct
    obtain ⟨hclear, hclears⟩ := List.forall_mem_cons.mp hgiven.clear
    obtain ⟨htake, htakes⟩ := List.forall_mem_cons.mp htaken
    unfold allocateTokens
    split
    · -- the least free index is of no token given before or behind
      have hfree := allocator.isFree_leastFree
      simp only [Allocator.isFree, Bool.and_eq_true, Bool.not_eq_true', List.contains_eq_mem,
        decide_eq_false_iff_not] at hfree
      simp only [Allocator.allocate]
      generalize allocator.leastFree = index at hfree
      obtain ⟨hgiven', hold⟩ := @ih { allocator with taken := index :: allocator.taken, next := index + 1 }
        ⟨hpairwise, hclears⟩ fun e he token ht => List.mem_cons_of_mem _ (htakes e he token ht)
      refine ⟨⟨List.pairwise_cons.mpr ⟨fun other hother t ht t' ht' hindex => ?_, hgiven'.distinct⟩,
        List.forall_mem_cons.mpr ⟨fun t ht => ?_, hgiven'.clear⟩⟩, List.forall_mem_cons.mpr ⟨fun t ht hin => ?_, ?_⟩⟩
      · obtain rfl : Placeholder.ofIndex index = t := by simpa using ht
        rw [Placeholder.index_ofIndex] at hindex
        obtain ⟨e, he, hte⟩ := hold other hother t' ht' (hindex ▸ List.mem_cons_self)
        exact hfree.1 (hindex ▸ htakes e he t' hte)
      · obtain rfl : Placeholder.ofIndex index = t := by simpa using ht
        exact hfree.2
      · obtain rfl : Placeholder.ofIndex index = t := by simpa using ht
        rw [Placeholder.index_ofIndex] at hin
        exact absurd hin hfree.1
      · intro other hother t ht hin
        obtain ⟨e, he, hte⟩ := hold other hother t ht (List.mem_cons_of_mem _ hin)
        exact ⟨e, List.mem_cons_of_mem _ he, hte⟩
    · obtain ⟨hgiven', hold⟩ := ih ⟨hpairwise, hclears⟩ htakes
      refine ⟨⟨List.pairwise_cons.mpr ⟨fun other hother t ht t' ht' hindex => ?_, hgiven'.distinct⟩,
        List.forall_mem_cons.mpr ⟨hclear, hgiven'.clear⟩⟩,
        List.forall_mem_cons.mpr ⟨fun t ht _ => ⟨entry, List.mem_cons_self, ht⟩, ?_⟩⟩
      · obtain ⟨e, he, hte⟩ := hold other hother t' ht' (hindex ▸ htake t ht)
        exact hhead e he t ht t' hte hindex
      · intro other hother t ht hin
        obtain ⟨e, he, hte⟩ := hold other hother t ht hin
        exact ⟨e, List.mem_cons_of_mem _ he, hte⟩

/-- An entry has a token exactly when it needs one. -/
theorem isSome_allocateTokens {allocator : Allocator} {entries : List TrackedEntry}
    (h : ∀ entry ∈ entries, entry.placeholder.isSome = true → needsPlaceholder entry = true) :
    ∀ entry ∈ allocateTokens allocator entries, entry.placeholder.isSome = needsPlaceholder entry := by
  induction entries generalizing allocator with
  | nil => simp [allocateTokens]
  | cons entry rest ih =>
    obtain ⟨hentry, hrest⟩ := List.forall_mem_cons.mp h
    unfold allocateTokens
    split
    · next hneeds =>
      rw [Bool.and_eq_true] at hneeds
      exact List.forall_mem_cons.mpr ⟨hneeds.2.symm, ih hrest⟩
    · next hneeds =>
      refine List.forall_mem_cons.mpr ⟨?_, ih hrest⟩
      rw [Bool.and_eq_true] at hneeds
      cases hp : entry.placeholder with
      | some token => exact (hentry (by rw [hp]; rfl)).symm
      | none =>
        rw [hp] at hneeds
        exact (by simpa using hneeds : needsPlaceholder entry = false).symm

theorem isSome_keepTokens {previous : Registry} {allocator : Allocator} {entries : List TrackedEntry}
    (hnone : ∀ entry ∈ entries, entry.placeholder = none) :
    ∀ entry ∈ (keepTokens previous allocator entries).1, entry.placeholder.isSome = true →
      needsPlaceholder entry = true := by
  induction entries generalizing allocator with
  | nil => simp [keepTokens]
  | cons entry rest ih =>
    obtain ⟨hentry, hrest⟩ := List.forall_mem_cons.mp hnone
    obtain ⟨entry', allocator', hclaims, hentries, -⟩ := keepTokens_cons previous allocator entry rest
    rw [hentries]
    refine List.forall_mem_cons.mpr ⟨?_, ih hrest⟩
    cases hclaims with
    | stays => simp [hentry]
    | keeps htoken =>
      intro _
      unfold earlierToken? at htoken
      split at htoken
      · assumption
      · cases htoken

def withTokens (previous : Registry) (allocator : Allocator)
    (entries : List TrackedEntry) : List TrackedEntry :=
  let kept := keepTokens previous allocator entries
  allocateTokens kept.2.2 kept.1

/-- Kept and allocated tokens are of different indices and collide with nothing. -/
theorem given_withTokens (previous : Registry) (allocator : Allocator) {entries : List TrackedEntry}
    (hnone : ∀ entry ∈ entries, entry.placeholder = none) :
    Given allocator (withTokens previous allocator entries) := by
  have hclaimed := @claimed_keepTokens previous allocator entries hnone
  have hcollides : ∀ token, (keepTokens previous allocator entries).2.2.collides token = allocator.collides token := by
    intro token
    simp only [Allocator.collides, hclaimed.text, hclaimed.names]
  have hgiven : Given (keepTokens previous allocator entries).2.2 (keepTokens previous allocator entries).1 :=
    ⟨hclaimed.given.distinct, fun e he t ht => (hcollides t).trans (hclaimed.given.clear e he t ht)⟩
  have hall := (given_allocateTokens hgiven fun e he t ht => (hclaimed.taken e he t ht).1).1
  exact ⟨hall.distinct, fun e he t ht => (hcollides t).symm.trans (hall.clear e he t ht)⟩

theorem isSome_withTokens (previous : Registry) (allocator : Allocator) {entries : List TrackedEntry}
    (hnone : ∀ entry ∈ entries, entry.placeholder = none) :
    ∀ entry ∈ withTokens previous allocator entries, entry.placeholder.isSome = needsPlaceholder entry :=
  isSome_allocateTokens (isSome_keepTokens hnone)

theorem bare_withTokens (previous : Registry) (allocator : Allocator) (entries : List TrackedEntry) :
    (withTokens previous allocator entries).map bare = entries.map bare := by
  rw [withTokens, bare_allocateTokens, bare_keepTokens]

end Track

end FieldRemap
