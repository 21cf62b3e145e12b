/-
  FieldRemap.Proofs.Retarget — names redirected in a text.

  The candidates for redirecting names, and the names derived from them, are the mentions of
  these names (`mem_gather`), so their spans never cross (`laminar_gather`). The winners lay the
  text out (`exists_redirected`): the text that comes out keeps everything between them
  (`Redirected.splice_eq`), and every mention of a name starts inside one of them
  (`Redirected.exists_cover`).
-/

import FieldRemap.Proofs.Search
import FieldRemap.Proofs.Weave
import FieldRemap.Tokenize

namespace FieldRemap

open Passage

/-- Candidates that are mentions of one text never cross. -/
theorem Candidate.laminar_of_mentions {α : Type} {context : Context} {text : List Char}
    {candidates : List (Candidate α)}
    (h : ∀ c ∈ candidates, ∃ m : Mention context text, c.span = ⟨m.start, m.stop⟩) : Candidate.Laminar candidates := by
  refine ⟨fun c hc => ?_, fun a ha b hb => ?_⟩
  · obtain ⟨m, hm⟩ := h c hc
    rw [hm]
    exact m.start_lt_stop
  · obtain ⟨m, hm⟩ := h a ha
    obtain ⟨n, hn⟩ := h b hb
    rw [hm, hn]
    exact m.nested n

namespace Retarget

/-- What may follow a redirected name, and the priority of the name with it. -/
inductive Ending (suffixes : List String) : String → Nat → Prop
  | own : Ending suffixes "" Track.literalPriority
  | suffix {suffix : String} : suffix ∈ suffixes → Ending suffixes suffix Track.derivedPriority

variable {quotes : QuoteMap} {text : List Char} {suffixes : List String} {c : Candidate Retarget}

theorem mem_candidates {name target : String} : c ∈ candidates quotes text suffixes name target ↔
    ∃ ending priority, Ending suffixes ending priority ∧
      ∃ r ∈ findReferences (name ++ ending).toList quotes text, c = ⟨r.span, priority, (r, target ++ ending)⟩ := by
  simp only [candidates, Track.candidatesFor, List.mem_append, List.mem_map, List.mem_flatMap]
  constructor
  · intro h
    rcases h with ⟨r, hr, rfl⟩ | ⟨suffix, hsuffix, r, hr, rfl⟩
    · exact ⟨"", _, .own, r, by simpa using hr, by simp⟩
    · exact ⟨suffix, _, .suffix hsuffix, r, hr, rfl⟩
  · intro h
    obtain ⟨ending, priority, hending, r, hr, rfl⟩ := h
    cases hending with
    | own => exact .inl ⟨r, by simpa using hr, by simp⟩
    | suffix hsuffix => exact .inr ⟨ending, hsuffix, r, hr, rfl⟩

def gather (quotes : QuoteMap) (text : List Char) (suffixes : List String) (renames : List (String × String)) :
    List (Candidate Retarget) :=
  renames.flatMap fun rename => candidates quotes text suffixes rename.1 rename.2

theorem mem_gather {renames : List (String × String)} : c ∈ gather quotes text suffixes renames ↔
    ∃ rename ∈ renames, ∃ ending priority, Ending suffixes ending priority ∧
      ∃ r ∈ findReferences (rename.1 ++ ending).toList quotes text,
        c = ⟨r.span, priority, (r, rename.2 ++ ending)⟩ := by
  simp only [gather, List.mem_flatMap, mem_candidates]

def Renamed (suffixes : List String) (renames : List (String × String)) (old new : List Char) : Prop :=
  ∃ rename ∈ renames, ∃ ending priority, Ending suffixes ending priority ∧
    old = (rename.1 ++ ending).toList ∧ new = (rename.2 ++ ending).toList

@[simp] theorem edits_nil : edits [] = [] := by
  rw [edits, Candidate.arbitrate, List.mergeSort_nil]
  rfl

variable {renames : List (String × String)}

theorem laminar_gather (hn : Context.outside.nests text = true) :
    Candidate.Laminar (gather (QuoteMap.lex text) text suffixes renames) := by
  apply @Candidate.laminar_of_mentions _ .outside text _
  intro c hc
  obtain ⟨rename, _, ending, priority, _, r, hr, rfl⟩ := mem_gather.mp hc
  obtain ⟨m, _, rfl⟩ := (mem_findReferences hn).mp hr
  exact ⟨m, rfl⟩

/-- A text laid out along the references whose redirection wins. -/
structure Redirected (suffixes : List String) (renames : List (String × String)) (text : List Char)
    (ps : List Passage) (tail : List Char) : Prop where
  source_eq : source tail ps = text
  woven : Woven tail .outside ps
  located_eq : (located 0 ps).map (fun x => (x.1, x.2.new)) =
    (Candidate.arbitrate (gather (QuoteMap.lex text) text suffixes renames)).map fun c => (c.value.1, c.value.2.toList)
  renamed : ∀ p ∈ ps, Renamed suffixes renames p.old p.new

theorem exists_redirected (suffixes : List String) (renames : List (String × String))
    (hn : Context.outside.nests text = true) :
    ∃ ps tail, Redirected suffixes renames text ps tail := by
  have hlaminar := @laminar_gather text suffixes renames hn
  have hvalue : ∀ c ∈ Candidate.arbitrate (gather (QuoteMap.lex text) text suffixes renames),
      c.value.1.span = c.span := by
    intro c hc
    obtain ⟨_, _, _, _, _, r, _, rfl⟩ := mem_gather.mp (Candidate.mem_of_mem_arbitrate hc)
    rfl
  obtain ⟨ps, tail, hsource, hwoven, hlocated, hrenamed⟩ := @exists_woven (Renamed suffixes renames) .outside [] text
    ((Candidate.arbitrate (gather (QuoteMap.lex text) text suffixes renames)).map fun c =>
      (c.value.1, c.value.2.toList))
    (by
      intro x hx
      obtain ⟨c, hc, rfl⟩ := List.mem_map.mp hx
      obtain ⟨rename, hrename, ending, priority, hending, r, hr, rfl⟩ :=
        mem_gather.mp (Candidate.mem_of_mem_arbitrate hc)
      obtain ⟨m, hname, rfl⟩ := (mem_findReferences hn).mp hr
      exact ⟨m, rfl, Nat.zero_le _, rename, hrename, ending, priority, hending, hname, rfl⟩)
    (by
      rw [List.pairwise_map]
      refine (Candidate.pairwise_arbitrate hlaminar.spans).imp_of_mem fun {a b} ha hb hab => ?_
      simp only [hvalue a ha, hvalue b hb]
      exact hab)
  exact ⟨ps, tail, hsource, hwoven, hlocated, hrenamed⟩

namespace Redirected

variable {ps : List Passage} {tail : List Char}

theorem edits_eq (h : Redirected suffixes renames text ps tail) :
    edits (gather (QuoteMap.lex text) text suffixes renames) =
      (located 0 ps).map fun x => x.1.redirect x.2.new := by
  have := congrArg (List.map fun y : Reference × List Char => y.1.redirect y.2) h.located_eq
  rw [List.map_map, List.map_map] at this
  exact this.symm

theorem splice_eq (h : Redirected suffixes renames text ps tail) :
    splice text (edits (gather (QuoteMap.lex text) text suffixes renames)) = target tail ps := by
  rw [h.edits_eq, ← h.source_eq, splice_located]

/-- Every mention of a redirected name starts inside a reference of the layout. -/
theorem exists_cover (h : Redirected suffixes renames text ps tail) (hn : Context.outside.nests text = true)
    (m : Mention .outside text) {rename : String × String} {ending : String} {priority : Nat}
    (hrename : rename ∈ renames)
    (hending : Ending suffixes ending priority) (hname : m.name = (rename.1 ++ ending).toList) :
    ∃ x ∈ located 0 ps, x.1.span.start ≤ m.start ∧ m.start < x.1.span.stop := by
  have hc : (⟨m.reference.span, priority, (m.reference, rename.2 ++ ending)⟩ : Candidate Retarget) ∈
      gather (QuoteMap.lex text) text suffixes renames :=
    mem_gather.mpr ⟨rename, hrename, ending, priority, hending, m.reference,
      (mem_findReferences hn).mpr ⟨m, hname, rfl⟩, rfl⟩
  obtain ⟨w, hw, _, hstart, hstop⟩ := Candidate.exists_mem_arbitrate (laminar_gather hn).spans hc
  obtain ⟨_, _, _, _, _, r, _, rfl⟩ := mem_gather.mp (Candidate.mem_of_mem_arbitrate hw)
  have hmem := List.mem_map_of_mem (f := fun c : Candidate Retarget => (c.value.1, c.value.2.toList)) hw
  rw [← h.located_eq] at hmem
  obtain ⟨x, hx, heq⟩ := List.mem_map.mp hmem
  refine ⟨x, hx, ?_⟩
  rw [(Prod.mk.inj heq).1]
  exact ⟨hstart, hstop⟩

end Redirected

end Retarget

end FieldRemap
