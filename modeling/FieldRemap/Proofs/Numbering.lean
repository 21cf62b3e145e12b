/-
  FieldRemap.Proofs.Numbering — which token each field of a pass gets.

  A pass goes through its entries twice. First the earlier tokens are claimed: an entry keeps
  its token when it can be told from the text and the names and no entry before it has claimed
  the index (`placeholder_keepTokens`). Then the entries left get tokens in turn. No index that
  was passed over becomes free again (`Allocator.Swept`), so each of them gets the least index
  that is neither claimed nor given out before (`allocateTokens_split`).

  Both together: an entry keeps its token unless it collides or an entry before has the index
  (`keeps_iff`), and every other entry is numbered with the least index open to it
  (`isLeast_open`), which is small (`le_of_isLeast_open`). A text without a name in it has no
  entries, so this is said of every registry a pass returns (`track_numbering`).
-/

import FieldRemap.Proofs.Tracking
import Mathlib.Order.Bounds.Defs

namespace FieldRemap

namespace Allocator

/-! ## The least free index -/

/-- What the search passes over fails the test. -/
theorem fails_of_lt_firstFrom {test : Nat → Bool} {bound index i : Nat} (hge : index ≤ i)
    (hlt : i < firstFrom test bound index) : test i = false := by
  induction bound generalizing index with
  | zero => exact absurd hlt (Nat.not_lt.mpr hge)
  | succ bound ih =>
    unfold firstFrom at hlt
    split at hlt
    · exact absurd hlt (Nat.not_lt.mpr hge)
    · next hnot =>
      rcases Nat.eq_or_lt_of_le hge with rfl | hgt
      · exact Bool.eq_false_iff.mpr hnot
      · exact ih hgt hlt

theorem isFree_eq_true {allocator : Allocator} {index : Nat} : allocator.isFree index = true ↔
    index ∉ allocator.taken ∧ allocator.collides (.ofIndex index) = false := by
  simp [isFree]

/-- No index before the next one is free. -/
def Swept (allocator : Allocator) : Prop :=
  ∀ index < allocator.next, allocator.isFree index = false

theorem isLeast_leastFree {allocator : Allocator} (h : allocator.Swept) :
    IsLeast {index | allocator.isFree index = true} allocator.leastFree := by
  refine ⟨allocator.isFree_leastFree, fun index hfree => ?_⟩
  by_contra hlt
  have hfree : allocator.isFree index = true := hfree
  have hfails : allocator.isFree index = false := by
    by_cases hnext : index < allocator.next
    · exact h index hnext
    · exact fails_of_lt_firstFrom (Nat.not_lt.mp hnext) (Nat.not_le.mp hlt)
  rw [hfails] at hfree
  cases hfree

theorem isFree_allocate {allocator : Allocator} {index : Nat} : allocator.allocate.2.isFree index = true ↔
    allocator.isFree index = true ∧ index ≠ allocator.leastFree := by
  have hcollides : allocator.allocate.2.collides (.ofIndex index) = allocator.collides (.ofIndex index) := rfl
  have htaken : allocator.allocate.2.taken = allocator.leastFree :: allocator.taken := rfl
  rw [isFree_eq_true, isFree_eq_true, hcollides, htaken, List.mem_cons, not_or]
  tauto

theorem Swept.allocate {allocator : Allocator} (h : allocator.Swept) : allocator.allocate.2.Swept := by
  intro index hlt
  have hlt : index < allocator.leastFree + 1 := hlt
  by_contra hfree
  obtain ⟨hfree, hne⟩ := isFree_allocate.mp (Bool.not_eq_false _ ▸ hfree)
  have hle : allocator.leastFree ≤ index := (isLeast_leastFree h).2 hfree
  omega

end Allocator

namespace Track

open TrackedEntry

/-! ## Claiming the earlier tokens -/

def indices (entries : List TrackedEntry) : List Nat :=
  entries.filterMap fun entry => entry.placeholder.map (·.index)

theorem mem_indices {entries : List TrackedEntry} {index : Nat} :
    index ∈ indices entries ↔ ∃ entry ∈ entries, ∃ token ∈ entry.placeholder, token.index = index := by
  simp [indices, Option.map_eq_some_iff]

theorem indices_cons_none {entry : TrackedEntry} {entries : List TrackedEntry} (h : entry.placeholder = none) :
    indices (entry :: entries) = indices entries := by
  simp [indices, h]

theorem indices_cons_some {entry : TrackedEntry} {entries : List TrackedEntry} {token : Placeholder}
    (h : entry.placeholder = some token) : indices (entry :: entries) = token.index :: indices entries := by
  simp [indices, h]

/-- The token an entry had before depends on no token it has now. -/
theorem earlierToken?_bare (previous : Registry) {a b : TrackedEntry} (h : a.bare = b.bare) :
    earlierToken? previous a = earlierToken? previous b := by
  have hbare (entry : TrackedEntry) : earlierToken? previous entry = earlierToken? previous entry.bare := rfl
  rw [hbare, h, ← hbare]

theorem needsPlaceholder_bare {a b : TrackedEntry} (h : a.bare = b.bare) :
    needsPlaceholder a = needsPlaceholder b := by
  have hbare (entry : TrackedEntry) : needsPlaceholder entry = needsPlaceholder entry.bare := rfl
  rw [hbare, h, ← hbare]

/-- Whether a token can be claimed by the first entry behind some that have claimed theirs. -/
def claimable (allocator : Allocator) (before : List TrackedEntry) (token : Placeholder) : Bool :=
  !allocator.taken.contains token.index && !(indices before).contains token.index && !allocator.collides token

theorem claimable_eq_true {allocator : Allocator} {before : List TrackedEntry} {token : Placeholder} :
    claimable allocator before token = true ↔
      token.index ∉ allocator.taken ∧ token.index ∉ indices before ∧ allocator.collides token = false := by
  simp [claimable, and_assoc]

theorem claimable_cons_none {allocator : Allocator} {before : List TrackedEntry} {entry : TrackedEntry}
    (h : entry.placeholder = none) : claimable allocator (entry :: before) = claimable allocator before := by
  funext token
  rw [claimable, indices_cons_none h, claimable]

/-- A token claimed by an entry is taken for those behind it. -/
theorem claimable_cons_some {allocator : Allocator} {before : List TrackedEntry} {entry : TrackedEntry}
    {token : Placeholder} (h : entry.placeholder = some token) : claimable allocator (entry :: before) =
      claimable { allocator with taken := token.index :: allocator.taken } before := by
  funext other
  have hcollides : Allocator.collides { allocator with taken := token.index :: allocator.taken } other =
    allocator.collides other := rfl
  rw [Bool.eq_iff_iff, claimable_eq_true, claimable_eq_true, indices_cons_some h, hcollides, List.mem_cons,
    List.mem_cons]
  tauto

/-- The first entry has the token it claims, if it can be claimed. -/
theorem Claims.placeholder_eq {previous : Registry} {allocator allocator' : Allocator} {entry entry' : TrackedEntry}
    (h : Claims previous allocator entry entry' allocator') (hnone : entry.placeholder = none) :
    entry'.placeholder = (earlierToken? previous entry').filter (claimable allocator []) := by
  cases h with
  | stays hfails =>
    rw [hnone, eq_comm, Option.filter_eq_none_iff]
    intro token htoken hclaim
    obtain ⟨hnot, -, hclear⟩ := claimable_eq_true.mp hclaim
    exact hfails token htoken ⟨hnot, hclear⟩
  | @keeps token htoken hnot hclear =>
    have hclaim : claimable allocator [] token = true := claimable_eq_true.mpr ⟨hnot, List.not_mem_nil, hclear⟩
    have hearlier : earlierToken? previous { entry with placeholder := some token } = some token := htoken
    rw [hearlier, Option.filter_some, if_pos hclaim]

/-- What an entry claims is taken for those behind it. -/
theorem Claims.claimable_cons {previous : Registry} {allocator allocator' : Allocator} {entry entry' : TrackedEntry}
    (h : Claims previous allocator entry entry' allocator') (hnone : entry.placeholder = none)
    (before : List TrackedEntry) : claimable allocator (entry' :: before) = claimable allocator' before := by
  cases h with
  | stays => exact claimable_cons_none hnone
  | keeps => exact claimable_cons_some rfl

/-- Each entry in turn keeps the token it had if that can be claimed. -/
theorem placeholder_keepTokens {previous : Registry} {allocator : Allocator} {entries : List TrackedEntry}
    (hnone : ∀ entry ∈ entries, entry.placeholder = none) {before after : List TrackedEntry} {entry : TrackedEntry}
    (h : (keepTokens previous allocator entries).1 = before ++ entry :: after) :
    entry.placeholder = (earlierToken? previous entry).filter (claimable allocator before) := by
  induction entries generalizing allocator before with
  | nil => simp [keepTokens] at h
  | cons first rest ih =>
    obtain ⟨hfirst, hrest⟩ := List.forall_mem_cons.mp hnone
    obtain ⟨first', allocator', hclaims, hentries, -⟩ := keepTokens_cons previous allocator first rest
    rw [hentries] at h
    cases before with
    | nil =>
      obtain ⟨rfl, -⟩ := List.cons.inj h
      exact hclaims.placeholder_eq hfirst
    | cons b before =>
      obtain ⟨rfl, hbehind⟩ := List.cons.inj h
      rw [hclaims.claimable_cons hfirst]
      exact ih hrest hbehind

/-- The indices taken are those of the tokens kept. -/
theorem taken_keepTokens {previous : Registry} {allocator : Allocator} {entries : List TrackedEntry}
    (hnone : ∀ entry ∈ entries, entry.placeholder = none) {index : Nat} :
    index ∈ (keepTokens previous allocator entries).2.2.taken ↔
      index ∈ indices (keepTokens previous allocator entries).1 ∨ index ∈ allocator.taken := by
  induction entries generalizing allocator with
  | nil => simp [keepTokens, indices]
  | cons first rest ih =>
    obtain ⟨hfirst, hrest⟩ := List.forall_mem_cons.mp hnone
    obtain ⟨first', allocator', hclaims, hentries, hafter⟩ := keepTokens_cons previous allocator first rest
    rw [hentries, hafter, ih hrest]
    cases hclaims with
    | stays => rw [indices_cons_none hfirst]
    | keeps =>
      rw [indices_cons_some rfl, List.mem_cons, List.mem_cons]
      tauto

theorem next_keepTokens (previous : Registry) (allocator : Allocator) (entries : List TrackedEntry) :
    (keepTokens previous allocator entries).2.2.next = allocator.next := by
  induction entries generalizing allocator with
  | nil => rfl
  | cons first rest ih =>
    obtain ⟨first', allocator', hclaims, -, hafter⟩ := keepTokens_cons previous allocator first rest
    rw [hafter, ih]
    cases hclaims <;> rfl

/-! ## Allocating the others -/

/-- What allocating makes of an entry behind others: one that has a token or needs none stays as it is, any other
    gets the least index that is free and that none of the others has. -/
inductive Allocated (allocator : Allocator) (before : List TrackedEntry) (old : TrackedEntry) : TrackedEntry → Prop
  | stays : (old.placeholder.isNone && needsPlaceholder old) = false → Allocated allocator before old old
  | numbered {index : Nat} : old.placeholder = none → needsPlaceholder old = true →
      IsLeast {index | allocator.isFree index = true ∧ index ∉ indices before} index →
      Allocated allocator before old { old with placeholder := some (.ofIndex index) }

theorem Allocated.bare_eq {allocator : Allocator} {before : List TrackedEntry} {old entry : TrackedEntry}
    (h : Allocated allocator before old entry) : entry.bare = old.bare := by
  cases h <;> rfl

/-- The index does not depend on how far the allocator has come with the entries before. -/
theorem Allocated.of_isFree_iff {allocator allocator' : Allocator} {before before' : List TrackedEntry}
    {old entry : TrackedEntry} (h : Allocated allocator before old entry)
    (hiff : ∀ index, allocator'.isFree index = true ∧ index ∉ indices before' ↔
      allocator.isFree index = true ∧ index ∉ indices before) : Allocated allocator' before' old entry := by
  cases h with
  | stays hstays => exact .stays hstays
  | numbered hnone hneeds hleast =>
    refine .numbered hnone hneeds ?_
    rwa [show {index | allocator'.isFree index = true ∧ index ∉ indices before'} =
      {index | allocator.isFree index = true ∧ index ∉ indices before} from Set.ext hiff]

theorem allocateTokens_split {allocator : Allocator} {entries : List TrackedEntry} (hswept : allocator.Swept)
    (htaken : ∀ index ∈ indices entries, index ∈ allocator.taken) {before after : List TrackedEntry}
    {entry : TrackedEntry} (h : allocateTokens allocator entries = before ++ entry :: after) :
    ∃ kept old others, entries = kept ++ old :: others ∧ indices kept ⊆ indices before ∧
      Allocated allocator before old entry := by
  induction entries generalizing allocator before with
  | nil => simp [allocateTokens] at h
  | cons first rest ih =>
    have htaken : (∀ token ∈ first.placeholder, token.index ∈ allocator.taken) ∧
        ∀ index ∈ indices rest, index ∈ allocator.taken := by
      constructor
      · intro token htoken
        exact htaken _ (mem_indices.mpr ⟨first, List.mem_cons_self, token, htoken, rfl⟩)
      · intro index hindex
        obtain ⟨other, hother, htoken⟩ := mem_indices.mp hindex
        exact htaken index (mem_indices.mpr ⟨other, List.mem_cons_of_mem _ hother, htoken⟩)
    unfold allocateTokens at h
    split at h
    · next hneeds =>
      obtain ⟨hfirst, hneeds⟩ : first.placeholder = none ∧ needsPlaceholder first = true := by simpa using hneeds
      cases before with
      | nil =>
        obtain ⟨rfl, -⟩ := List.cons.inj h
        refine ⟨[], first, rest, rfl, List.Subset.refl _, .numbered hfirst hneeds ?_⟩
        simpa [indices] using Allocator.isLeast_leastFree hswept
      | cons b before =>
        obtain ⟨rfl, hbehind⟩ := List.cons.inj h
        obtain ⟨kept, old, others, rfl, hsub, hold⟩ :=
          ih hswept.allocate (fun index hindex => List.mem_cons_of_mem _ (htaken.2 index hindex)) hbehind
        have hindices : indices ({ first with placeholder := some (.ofIndex allocator.leastFree) } :: before) =
            allocator.leastFree :: indices before := by
          rw [indices_cons_some rfl, Placeholder.index_ofIndex]
        refine ⟨first :: kept, old, others, rfl, ?_, hold.of_isFree_iff fun index => ?_⟩
        · rw [indices_cons_none hfirst, hindices]
          exact List.Subset.trans hsub (List.subset_cons_self _ _)
        · rw [hindices, List.mem_cons, not_or, Allocator.isFree_allocate, and_assoc]
    · next hneeds =>
      cases before with
      | nil =>
        obtain ⟨rfl, -⟩ := List.cons.inj h
        exact ⟨[], first, rest, rfl, List.Subset.refl _, .stays (Bool.eq_false_iff.mpr hneeds)⟩
      | cons b before =>
        obtain ⟨rfl, hbehind⟩ := List.cons.inj h
        obtain ⟨kept, old, others, rfl, hsub, hold⟩ := ih hswept htaken.2 hbehind
        have hcons (entries : List TrackedEntry) (index : Nat) : index ∈ indices (first :: entries) ↔
            (∃ token ∈ first.placeholder, token.index = index) ∨ index ∈ indices entries := by
          simp only [mem_indices, List.exists_mem_cons_iff]
        refine ⟨first :: kept, old, others, rfl, ?_, hold.of_isFree_iff fun index => ?_⟩
        · intro index hindex
          exact (hcons _ _).mpr (((hcons _ _).mp hindex).imp id (@hsub index))
        · -- the token of the first entry is taken already
          rw [hcons, not_or]
          refine and_congr_right fun hfree => and_iff_right ?_
          intro hfirst
          obtain ⟨token, htoken, rfl⟩ := hfirst
          exact (Allocator.isFree_eq_true.mp hfree).1 (htaken.1 token htoken)

/-- An entry that has a token already goes through as it is. -/
theorem mem_allocateTokens {allocator : Allocator} {entries : List TrackedEntry} {entry : TrackedEntry}
    (h : entry ∈ entries) (htoken : entry.placeholder.isSome = true) : entry ∈ allocateTokens allocator entries := by
  induction entries generalizing allocator with
  | nil => cases h
  | cons first rest ih =>
    unfold allocateTokens
    split
    · next hneeds =>
      rcases List.mem_cons.mp h with rfl | h
      · simp [Option.isNone_eq_false_iff.mpr htoken] at hneeds
      · exact List.mem_cons_of_mem _ (ih h)
    · rcases List.mem_cons.mp h with rfl | h
      · exact List.mem_cons_self
      · exact List.mem_cons_of_mem _ (ih h)

/-! ## Both together -/

def Keeps (previous : Registry) (entry : TrackedEntry) : Prop :=
  ∃ token, earlierToken? previous entry = some token ∧ entry.placeholder = some token

section

variable {previous : Registry} {text : List Char} {names : List String} {entries before after : List TrackedEntry}
  {entry : TrackedEntry} {index : Nat}

/-- Behind the first pass the allocator tells the same tokens apart as before it. -/
theorem collides_keepTokens {allocator : Allocator} (hnone : ∀ entry ∈ entries, entry.placeholder = none)
    (token : Placeholder) :
    (keepTokens previous allocator entries).2.2.collides token = allocator.collides token := by
  have hclaimed := @claimed_keepTokens previous allocator entries hnone
  simp only [Allocator.collides, hclaimed.text, hclaimed.names]

theorem withTokens_split (hnone : ∀ entry ∈ entries, entry.placeholder = none)
    (h : withTokens previous { text, names } entries = before ++ entry :: after) :
    ∃ kept old others, (keepTokens previous { text, names } entries).1 = kept ++ old :: others ∧
      indices kept ⊆ indices before ∧
      Allocated (keepTokens previous { text, names } entries).2.2 before old entry := by
  refine allocateTokens_split (fun index hlt => ?_) (fun index hindex => ?_) h
  · rw [next_keepTokens] at hlt
    exact absurd hlt (Nat.not_lt_zero index)
  · exact (taken_keepTokens hnone).mpr (.inl hindex)

/-- A token that is clear and not claimed before is kept. -/
theorem keeps_of_split {allocator : Allocator} {kept others : List TrackedEntry} {old : TrackedEntry}
    {token : Placeholder} (hnone : ∀ entry ∈ entries, entry.placeholder = none)
    (hkept : (keepTokens previous { text, names } entries).1 = kept ++ old :: others)
    (hold : Allocated allocator before old entry) (hearlier : earlierToken? previous entry = some token)
    (hclear : Allocator.collides { text, names } token = false) (hindex : token.index ∉ indices kept) :
    Keeps previous entry := by
  have hplaceholder := placeholder_keepTokens hnone hkept
  have hclaim : claimable { text, names } kept token = true :=
    claimable_eq_true.mpr ⟨List.not_mem_nil, hindex, hclear⟩
  rw [← earlierToken?_bare previous hold.bare_eq, hearlier, Option.filter_some, if_pos hclaim] at hplaceholder
  cases hold with
  | stays => exact ⟨token, hearlier, hplaceholder⟩
  | numbered holdnone =>
    rw [holdnone] at hplaceholder
    cases hplaceholder

/-- An entry keeps its token unless it collides or an entry before it has the index. -/
theorem keeps_iff (hnone : ∀ entry ∈ entries, entry.placeholder = none)
    (h : withTokens previous { text, names } entries = before ++ entry :: after) :
    Keeps previous entry ↔ ∃ token, earlierToken? previous entry = some token ∧
      Allocator.collides { text, names } token = false ∧ token.index ∉ indices before := by
  constructor
  · intro hkeeps
    obtain ⟨token, hearlier, htoken⟩ := hkeeps
    have hgiven := given_withTokens previous { text, names } hnone
    rw [h] at hgiven
    refine ⟨token, hearlier, hgiven.clear entry (by simp) token htoken, fun hindex => ?_⟩
    obtain ⟨other, hother, token', htoken', heq⟩ := mem_indices.mp hindex
    exact (List.pairwise_append.mp hgiven.distinct).2.2 other hother entry List.mem_cons_self token' htoken' token
      htoken heq
  · intro hclear
    obtain ⟨token, hearlier, hclear, hindex⟩ := hclear
    obtain ⟨kept, old, others, hkept, hsub, hold⟩ := withTokens_split hnone h
    exact keeps_of_split hnone hkept hold hearlier hclear fun hmem => hindex (hsub hmem)

/-- The indices taken by the first pass are those of the entries that keep their tokens. -/
theorem mem_taken_iff (hnone : ∀ entry ∈ entries, entry.placeholder = none) :
    index ∈ (keepTokens previous { text, names } entries).2.2.taken ↔
      ∃ entry ∈ withTokens previous { text, names } entries, Keeps previous entry ∧
        ∃ token ∈ entry.placeholder, token.index = index := by
  rw [taken_keepTokens hnone, or_iff_left List.not_mem_nil]
  constructor
  · intro hindex
    obtain ⟨entry, hentry, token, htoken, hindex⟩ := mem_indices.mp hindex
    refine ⟨entry, mem_allocateTokens hentry (by rw [htoken]; rfl), ?_, token, htoken, hindex⟩
    obtain ⟨kept, others, hsplit⟩ := List.append_of_mem hentry
    have hplaceholder := placeholder_keepTokens hnone hsplit
    rw [htoken] at hplaceholder
    exact ⟨token, (Option.filter_eq_some_iff.mp hplaceholder.symm).1, htoken⟩
  · intro hkept
    obtain ⟨entry, hentry, ⟨token, hearlier, htoken⟩, token', htoken', rfl⟩ := hkept
    obtain rfl : token = token' := by rw [htoken] at htoken'; exact Option.some.inj htoken'
    obtain ⟨before, after, hsplit⟩ := List.append_of_mem hentry
    obtain ⟨kept, old, others, hkept, -, hold⟩ := withTokens_split hnone hsplit
    cases hold with
    | stays => exact mem_indices.mpr ⟨entry, by simp [hkept], token, htoken, rfl⟩
    | @numbered index holdnone _ hleast =>
      -- a token that was refused is not the one allocated, since that one is free
      obtain rfl : Placeholder.ofIndex index = token := Option.some.inj htoken
      obtain ⟨hnot, hclear⟩ := Allocator.isFree_eq_true.mp hleast.1.1
      rw [collides_keepTokens hnone] at hclear
      rw [taken_keepTokens hnone, or_iff_left List.not_mem_nil] at hnot
      have hclaim : claimable { text, names } kept (.ofIndex index) = true := by
        refine claimable_eq_true.mpr ⟨List.not_mem_nil, fun hmem => hnot ?_, hclear⟩
        rw [Placeholder.index_ofIndex] at hmem
        obtain ⟨other, hother, htoken⟩ := mem_indices.mp hmem
        exact mem_indices.mpr ⟨other, by simp [hkept, hother], htoken⟩
      have hplaceholder := placeholder_keepTokens hnone hkept
      have hearlier : earlierToken? previous old = some (.ofIndex index) := hearlier
      rw [hearlier, Option.filter_some, if_pos hclaim, holdnone] at hplaceholder
      cases hplaceholder

/-- The index can be given to an entry: its token is clear, no entry keeps it and none before has it. -/
structure Open (previous : Registry) (allocator : Allocator) (entries before : List TrackedEntry) (index : Nat) :
    Prop where
  clear : allocator.collides (.ofIndex index) = false
  unkept : ∀ entry ∈ entries, Keeps previous entry → ∀ token ∈ entry.placeholder, token.index ≠ index
  unused : ∀ entry ∈ before, ∀ token ∈ entry.placeholder, token.index ≠ index

/-- An entry that needs a token and does not keep one is numbered with the least index open to it. -/
theorem isLeast_open (hnone : ∀ entry ∈ entries, entry.placeholder = none)
    (h : withTokens previous { text, names } entries = before ++ entry :: after)
    (hneeds : needsPlaceholder entry = true) (hkeeps : ¬ Keeps previous entry) :
    ∃ index, entry.placeholder = some (.ofIndex index) ∧
      IsLeast {index | Open previous { text, names } (withTokens previous { text, names } entries) before index}
        index := by
  obtain ⟨kept, old, others, hkept, -, hold⟩ := withTokens_split hnone h
  cases hold with
  | stays hstays =>
    have hsome := isSome_withTokens previous { text, names } hnone entry (by simp [h])
    obtain ⟨token, htoken⟩ := Option.isSome_iff_exists.mp (hsome.trans hneeds)
    have hplaceholder := placeholder_keepTokens hnone hkept
    rw [htoken] at hplaceholder
    exact absurd ⟨token, (Option.filter_eq_some_iff.mp hplaceholder.symm).1, htoken⟩ hkeeps
  | @numbered index _ _ hleast =>
    refine ⟨index, rfl, ?_⟩
    convert hleast using 3 with i
    rw [Allocator.isFree_eq_true, mem_taken_iff hnone, collides_keepTokens hnone]
    constructor
    · intro hopen
      refine ⟨⟨?_, hopen.clear⟩, ?_⟩
      · rintro ⟨entry, hentry, hkeeps, token, htoken, heq⟩
        exact hopen.unkept entry hentry hkeeps token htoken heq
      · intro hmem
        obtain ⟨entry, hentry, token, htoken, heq⟩ := mem_indices.mp hmem
        exact hopen.unused entry hentry token htoken heq
    · intro hfree
      obtain ⟨⟨hunkept, hclear⟩, hunused⟩ := hfree
      refine ⟨hclear, ?_, ?_⟩
      · intro entry hentry hkeeps token htoken heq
        exact hunkept ⟨entry, hentry, hkeeps, token, htoken, heq⟩
      · intro entry hentry token htoken heq
        exact hunused (mem_indices.mpr ⟨entry, hentry, token, htoken, heq⟩)

/-- The least open index is at most the number of entries, names and characters there are. -/
theorem le_of_isLeast_open {allocator : Allocator} (hsub : before ⊆ entries)
    (h : IsLeast {index | Open previous allocator entries before index} index) :
    index ≤ entries.length + allocator.names.length + allocator.text.length := by
  have hall : ∀ i ∈ List.range index, Allocator.isFree { allocator with taken := indices entries } i = false := by
    intro i hi
    by_contra hfree
    obtain ⟨hnot, hclear⟩ := Allocator.isFree_eq_true.mp (Bool.not_eq_false _ ▸ hfree)
    have hopen : Open previous allocator entries before i := by
      refine ⟨hclear, fun entry hentry _ token htoken heq => ?_, fun entry hentry token htoken heq => ?_⟩
      · exact hnot (mem_indices.mpr ⟨entry, hentry, token, htoken, heq⟩)
      · exact hnot (mem_indices.mpr ⟨entry, hsub hentry, token, htoken, heq⟩)
    exact absurd (h.2 hopen) (Nat.not_le.mpr (List.mem_range.mp hi))
  have hbound := Allocator.length_le_searchBound _ List.nodup_range hall
  have hindices : (indices entries).length ≤ entries.length := List.length_filterMap_le _ _
  rw [List.length_range] at hbound
  simp only [Allocator.searchBound] at hbound
  omega

end

end Track

/-! ## Blank texts -/

theorem Form.open?_of_isSpace {c : Char} (h : isSpace c = true) (rest : List Char) : Form.open? (c :: rest) = none := by
  have hne {d : Char} (hd : isSpace d = false) : c ≠ d := by
    intro he
    rw [he, hd] at h
    cases h
  have hb : c ≠ '\\' := hne (by decide)
  have hq : c ≠ '"' := hne (by decide)
  have hs : c ≠ '\'' := hne (by decide)
  have ho : c ≠ '[' := hne (by decide)
  have hd : c ≠ '.' := hne (by decide)
  unfold Form.open?
  split <;> simp_all

theorem NamePattern.searchFrom_of_blank (pattern : NamePattern) (quotes : QuoteMap) {text : List Char}
    (pos resume : Nat) (h : text.all isSpace = true) : pattern.searchFrom quotes pos resume text = [] := by
  induction text generalizing pos with
  | nil => rfl
  | cons c text ih =>
    obtain ⟨hc, htext⟩ : isSpace c = true ∧ text.all isSpace = true := by simpa using h
    have hnone : pattern.matchAt? (c :: text) = none := by
      rw [matchAt?, Form.open?_of_isSpace hc, Option.bind_none]
    rw [searchFrom, hnone, ih _ htext, ite_self]

namespace Track

theorem hits_of_blank (conventions : List Convention) {text : List Char} (fields : List DatasetField)
    (h : text.all isSpace = true) : hits conventions text fields = [] := by
  have hcandidates : allCandidates conventions text fields = [] := by
    refine List.eq_nil_iff_forall_not_mem.mpr fun c hc => ?_
    obtain ⟨x, -, hc⟩ := mem_allCandidates.mp hc
    obtain ⟨own, -, ending, priority, kind, -, r, hr, -⟩ := mem_fieldCandidates.mp hc
    unfold findReferences at hr
    split at hr
    · cases hr
    · rw [NamePattern.search, NamePattern.searchFrom_of_blank _ _ _ _ h] at hr
      cases hr
  rw [hits_eq, hcandidates, Candidate.arbitrate, List.mergeSort_nil]
  rfl

/-- Also where nothing is searched for, the registry is made of the entries of the pass. -/
theorem trackedFields_eq_ofEntries (request : TrackingRequest) :
    (track request).trackedFields = .ofEntries (passEntries request) := by
  by_cases hempty : (request.specText.toList.all isSpace || request.knownFields.isEmpty) = true
  · have hentries : entries (hits request.supplementaryPatterns request.specText.toList request.knownFields)
        request.knownFields = [] := by
      rcases Bool.or_eq_true _ _ ▸ hempty with h | h
      · rw [hits_of_blank _ _ h]
        exact List.eq_nil_iff_forall_not_mem.mpr fun entry hentry => by
          obtain ⟨-, -, x, -, hcounts⟩ := counts_of_mem_entries hentry
          obtain ⟨hit, hhit, -⟩ := hcounts.used
          cases hhit
      · rw [List.isEmpty_iff.mp h]
        rfl
    simp only [track, pass, hempty, if_true, passEntries, hentries]
    rfl
  · simp only [track, pass, Bool.not_eq_true _ ▸ hempty]
    rfl

end Track

/-! ## The tokens of a pass -/

/-- The token can be told from the text of a request and from the names of its fields. -/
structure TrackingRequest.Clear (request : TrackingRequest) (token : Placeholder) : Prop where
  unwritten : ¬ token.chars <:+: request.specText.toList
  unnamed : ∀ field ∈ request.knownFields, field.name ≠ token.text

theorem TrackingRequest.clear_iff {request : TrackingRequest} {token : Placeholder} : request.Clear token ↔
    Allocator.collides { text := request.specText.toList, names := request.knownFields.map (·.name) } token =
      false := by
  rw [Allocator.collides, Bool.or_eq_false_iff, ← Bool.not_eq_true, ← Bool.not_eq_true, occursIn_iff]
  constructor
  · intro h
    refine ⟨fun hnamed => ?_, h.unwritten⟩
    obtain ⟨field, hfield, hname⟩ := List.mem_map.mp (List.contains_iff_mem.mp hnamed)
    exact h.unnamed field hfield hname
  · intro h
    exact ⟨h.2, fun field hfield hname => h.1 (List.contains_iff_mem.mpr (List.mem_map.mpr ⟨field, hfield, hname⟩))⟩

theorem TrackedEntry.Distinct.symm {a b : TrackedEntry} (h : a.Distinct b) : b.Distinct a :=
  fun token htoken token' htoken' => (h token' htoken' token htoken).symm

namespace Track

theorem distinct_trackedFields (request : TrackingRequest) :
    (track request).trackedFields.entries.Pairwise TrackedEntry.Distinct := by
  rw [trackedFields_eq_ofEntries]
  refine (Registry.ofEntries (passEntries request)).ascending.imp_of_mem fun {a b} ha hb hlt => ?_
  by_contra hnot
  have heq : a = b := eq_of_not_rel (given_passEntries request).distinct (Registry.mem_of_mem_ofEntries ha)
    (Registry.mem_of_mem_ofEntries hb) hnot fun h => hnot h.symm
  rw [heq] at hlt
  exact String.lt_irrefl _ hlt

theorem needsPlaceholder_eq_true {entry : TrackedEntry} : needsPlaceholder entry = true ↔
    entry.usageKind? ≠ some .selectionStatus ∧ entry.usageKind? ≠ some .rowIdentifier := by
  unfold needsPlaceholder
  cases entry.usageKind? with
  | none => simp
  | some kind => cases kind <;> simp [UsageKind.isReserved]

/-- Without their tokens the entries of a pass are those that were found. -/
theorem map_bare_passEntries (request : TrackingRequest) : (passEntries request).map TrackedEntry.bare =
    entries (hits request.supplementaryPatterns request.specText.toList request.knownFields) request.knownFields := by
  rw [passEntries, bare_withTokens]
  refine List.map_congr_left (fun entry hentry => ?_) |>.trans (List.map_id _)
  obtain ⟨hnone, -⟩ := counts_of_mem_entries hentry
  cases entry
  cases hnone
  rfl

/-- No more entries are found than there are fields. -/
theorem length_passEntries_le (request : TrackingRequest) :
    (passEntries request).length ≤ request.knownFields.length := by
  rw [← List.length_map TrackedEntry.bare, map_bare_passEntries, entries]
  exact (List.length_filterMap_le _ _).trans_eq List.length_zipIdx

end Track

open Track in
/-- Exactly the entries that are not of a reserved kind have a token; the tokens are of different indices and clear.
    In the order of the fields an entry keeps the token it had if that is clear and no entry before has its index,
    and otherwise it gets the least index that is clear, that no entry keeps and that none before has. There always
    is one. -/
theorem track_numbering (request : TrackingRequest) :
    let registry := (track request).trackedFields
    let previous := if request.reset then .empty else request.previousTrackedFields
    let found := entries (hits request.supplementaryPatterns request.specText.toList request.knownFields)
      request.knownFields
    (∀ entry ∈ registry.entries,
      (entry.placeholder.isSome = true ↔
        entry.usageKind? ≠ some .selectionStatus ∧ entry.usageKind? ≠ some .rowIdentifier) ∧
      ∀ token ∈ entry.placeholder, request.Clear token) ∧
    registry.entries.Pairwise TrackedEntry.Distinct ∧
    ∃ entries, registry = .ofEntries entries ∧ entries.map TrackedEntry.bare = found ∧
      ∀ before entry after, entries = before ++ entry :: after → needsPlaceholder entry = true →
        (Keeps previous entry ↔ ∃ token, (previous.get? entry.fieldKey).bind (·.placeholder) = some token ∧
          request.Clear token ∧ ∀ other ∈ before, ∀ token' ∈ other.placeholder, token'.index ≠ token.index) ∧
        (¬ Keeps previous entry → ∃ index, entry.placeholder = some (.ofIndex index) ∧
          IsLeast {index | request.Clear (.ofIndex index) ∧
            (∀ other ∈ entries, Keeps previous other → ∀ token ∈ other.placeholder, token.index ≠ index) ∧
            ∀ other ∈ before, ∀ token ∈ other.placeholder, token.index ≠ index} index ∧
          index ≤ 2 * request.knownFields.length + request.specText.toList.length) := by
  intro registry previous found
  have hnone : ∀ entry ∈ found, entry.placeholder = none := fun _ h => (counts_of_mem_entries h).1
  have hgiven := given_passEntries request
  refine ⟨fun entry hentry => ?_, distinct_trackedFields request, passEntries request,
    trackedFields_eq_ofEntries request, map_bare_passEntries request, ?_⟩
  · have hentry : entry ∈ passEntries request := by
      apply Registry.mem_of_mem_ofEntries
      rw [← trackedFields_eq_ofEntries]
      exact hentry
    rw [isSome_withTokens _ _ hnone entry hentry, needsPlaceholder_eq_true]
    exact ⟨Iff.rfl, fun token htoken => TrackingRequest.clear_iff.mpr (hgiven.clear entry hentry token htoken)⟩
  · intro before entry after hsplit hneeds
    constructor
    · have hearlier : earlierToken? previous entry = (previous.get? entry.fieldKey).bind (·.placeholder) :=
        if_pos hneeds
      rw [keeps_iff hnone hsplit, hearlier]
      simp only [← TrackingRequest.clear_iff, mem_indices, not_exists, not_and, ne_eq]
    · intro hkeeps
      obtain ⟨index, htoken, hleast⟩ := isLeast_open hnone hsplit hneeds hkeeps
      have hsub : before ⊆ passEntries request := by
        rw [hsplit]
        exact List.subset_append_left _ _
      have hle := le_of_isLeast_open hsub hleast
      have hlength := length_passEntries_le request
      simp only [List.length_map] at hle
      refine ⟨index, htoken, ?_, by omega⟩
      convert hleast using 3 with i
      rw [TrackingRequest.clear_iff]
      exact ⟨fun h => ⟨h.1, h.2.1, h.2.2⟩, fun h => ⟨h.clear, h.unkept, h.unused⟩⟩

end FieldRemap
