import ContextDesk.LogAnalysis.Exceptions.Analysis
import ContextDesk.LogAnalysis.Exceptions.Grouping
import ContextDesk.LogAnalysis.Exceptions.LaneRuns

/-!
# Conservation

Events with different identities are cited at most once, each rendering is in one occurrence, and
so the counts of the occurrences add up to the counts of the report
(`analyzeBounded_conserves`). The order in which the events come plays no part.
-/

namespace ContextDesk.LogAnalysis.Exceptions

open Lib List

/-! ## Sums over the groups -/

theorem finRange_map_episode (renderings : List RenderEpisode) :
    (finRange renderings.length).map episode = renderings :=
  map_get_finRange renderings

theorem members_perm (renderings : List RenderEpisode) :
    ((correlate renderings).groups.flatMap fun g => episodesOf g.members).Perm renderings := by
  have h := (correlate_partition renderings).map episode
  rw [finRange_map_episode] at h
  unfold paired at h
  rwa [map_flatMap] at h

theorem sum_groups (renderings : List RenderEpisode) (f : RenderEpisode → Nat) :
    ((correlate renderings).groups.map fun g => ((episodesOf g.members).map f).sum).sum =
      (renderings.map f).sum := by
  rw [← ((members_perm renderings).map f).sum_eq, map_flatMap, flatMap_def,
    sum_flatten, map_map]
  rfl

theorem occurrences_perm (renderings : List RenderEpisode) :
    (correlateRenderings renderings).1.Perm
      ((correlate renderings).groups.map (summarize renderings)) :=
  sortBy_perm _ _

theorem sum_occurrences (renderings : List RenderEpisode)
    (f : ExceptionOccurrenceSummary → Nat) :
    ((correlateRenderings renderings).1.map fun o => f o.2).sum =
      ((correlate renderings).groups.map fun g => f (summarize renderings g).2).sum := by
  rw [((occurrences_perm renderings).map _).sum_eq, map_map]
  rfl

/-! ## One occurrence -/

theorem annotateUnresolved_eq (renderings : List RenderEpisode) (o : ExceptionOccurrenceSummary) :
    ∃ reasons conflicts ambiguity, annotateUnresolved renderings o =
      { o with
        reasonCodes := reasons
        conflictCodes := conflicts
        ambiguityCount := ambiguity } := by
  unfold annotateUnresolved
  split
  · exact ⟨_, _, _, rfl⟩
  · split
    · exact ⟨_, _, _, rfl⟩
    · split
      · exact ⟨_, _, _, rfl⟩
      · dsimp only
        split <;> split <;> exact ⟨_, _, _, rfl⟩

section

variable {renderings : List RenderEpisode} (g : CorrelationGroup renderings)

theorem summarize_citations : (summarize renderings g).2.citations = sortBy citationKey
    (firstSeen (fun c => c) [] ((episodesOf g.members).flatMap (·.citations))) := by
  obtain ⟨_, _, _, h⟩ := annotateUnresolved_eq renderings
    (occurrenceFromRenderings (episodesOf g.members) g.confidence)
  show (annotateUnresolved _ _).citations = _
  rw [h]
  rfl

theorem summarize_raw :
    (summarize renderings g).2.rawRecordCount = (summarize renderings g).2.citations.length := by
  obtain ⟨_, _, _, h⟩ := annotateUnresolved_eq renderings
    (occurrenceFromRenderings (episodesOf g.members) g.confidence)
  show (annotateUnresolved _ _).rawRecordCount = (annotateUnresolved _ _).citations.length
  rw [h]
  rfl

theorem summarize_records : (summarize renderings g).2.applicationRecordCount +
      (summarize renderings g).2.stderrRecordCount =
    recordsOf .applicationFullStack (episodesOf g.members) +
      recordsOf .separatelyWrappedRecords (episodesOf g.members) := by
  obtain ⟨_, _, _, h⟩ := annotateUnresolved_eq renderings
    (occurrenceFromRenderings (episodesOf g.members) g.confidence)
  show (annotateUnresolved _ _).applicationRecordCount +
    (annotateUnresolved _ _).stderrRecordCount = _
  rw [h]
  rfl

theorem summarize_renderings : (summarize renderings g).2.renderingCount = g.members.length := by
  obtain ⟨_, _, _, h⟩ := annotateUnresolved_eq renderings
    (occurrenceFromRenderings (episodesOf g.members) g.confidence)
  show (annotateUnresolved _ _).renderingCount = _
  rw [h]
  exact length_map _

end

theorem records_sum (l : List RenderEpisode) :
    recordsOf .applicationFullStack l + recordsOf .separatelyWrappedRecords l =
      (l.map fun r => r.citations.length).sum := by
  induction l with
  | nil => rfl
  | cons r l ih =>
    rw [map_cons, sum_cons, ← ih]
    unfold recordsOf
    cases hkind : r.kind <;> simp [hkind] <;> omega

/-! ## Citations of different events -/

theorem identity_of_cites (l : List ExceptionEventCitation) :
    l.map ExceptionEventCitation.identity =
      (l.map ExceptionEventCitation.cites).map fun c => (c.1, c.2.1) := by
  rw [map_map]
  rfl

variable {events : List ExplorerEvent}

theorem citations_nodup {renderings : List RenderEpisode} {isPartial : Bool}
    (hdistinct : (events.map eventIdentity).Nodup)
    (h : deriveRenderEpisodes events = .ok (renderings, isPartial)) :
    ((renderings.flatMap (·.citations)).map ExceptionEventCitation.identity).Nodup := by
  have hle := Multiset.map_le_map (f := fun c : CitedEvent => (c.1, c.2.1)) (cited_derive h)
  rw [Multiset.map_coe, Multiset.map_coe, ← identity_of_cites, map_map] at hle
  exact Multiset.coe_nodup.mp (Multiset.nodup_of_le hle (Multiset.coe_nodup.mpr hdistinct))

theorem event_of_citation {renderings : List RenderEpisode} {isPartial : Bool}
    (h : deriveRenderEpisodes events = .ok (renderings, isPartial)) {c : ExceptionEventCitation}
    (hc : c ∈ renderings.flatMap (·.citations)) :
    ∃ e ∈ events, c.seq = e.seq ∧ c.source = e.source ∧ c.templateId = e.templateId := by
  have hmem := Multiset.mem_of_le (cited_derive h)
    (Multiset.mem_coe.mpr (mem_map.mpr ⟨c, hc, rfl⟩))
  obtain ⟨e, he, heq⟩ := mem_map.mp (Multiset.mem_coe.mp hmem)
  unfold eventCited ExceptionEventCitation.cites at heq
  simp only [Prod.mk.injEq] at heq
  exact ⟨e, he, heq.1.symm, heq.2.1.symm, heq.2.2.symm⟩

section

variable {renderings : List RenderEpisode}
  (hnodup : ((renderings.flatMap (·.citations)).map ExceptionEventCitation.identity).Nodup)
include hnodup

theorem group_citations {g : CorrelationGroup renderings} (hg : g ∈ (correlate renderings).groups) :
    (summarize renderings g).2.citations.Perm ((episodesOf g.members).flatMap (·.citations)) := by
  rw [summarize_citations]
  refine (sortBy_perm _ _).trans (.of_eq (firstSeen_eq_self ?_ fun _ _ => not_mem_nil))
  rw [map_id']
  have hall : ((correlate renderings).groups.flatMap fun g =>
      (episodesOf g.members).flatMap (·.citations)).Nodup := by
    have hperm := (members_perm renderings).flatMap_right fun r : RenderEpisode => r.citations
    rw [flatMap_assoc] at hperm
    exact hperm.nodup_iff.mpr hnodup.of_map
  exact (nodup_flatMap.mp hall).1 g hg

theorem occurrence_citations :
    ((correlateRenderings renderings).1.flatMap (·.2.citations)).Perm
      (renderings.flatMap (·.citations)) := by
  refine ((occurrences_perm renderings).flatMap_right _).trans ?_
  rw [flatMap_map]
  have hperm := (members_perm renderings).flatMap_right fun r : RenderEpisode => r.citations
  rw [flatMap_assoc] at hperm
  refine .trans ?_ hperm
  exact List.Perm.flatMap_left _ fun g hg => group_citations hnodup hg

theorem raw_conserved :
    ((correlateRenderings renderings).1.map (·.2.rawRecordCount)).sum =
      (renderings.map fun r => r.citations.length).sum := by
  rw [sum_occurrences, ← sum_groups]
  refine congrArg List.sum (map_congr_left fun g hg => ?_)
  rw [summarize_raw, (group_citations hnodup hg).length_eq, length_flatMap]

theorem duplicates_eq_zero (eligible candidates : Finset Identity)
    (rendered : List ExceptionEventCitation) :
    (coverage eligible candidates rendered
      ((correlateRenderings renderings).1.flatMap (·.2.citations))).duplicates = 0 := by
  unfold coverage
  dsimp only
  have h := ((occurrence_citations hnodup).map _).nodup_iff.mpr hnodup
  rw [firstSeen_eq_self h fun _ _ => not_mem_nil, Nat.sub_self]

end

/-! ## The order of the events -/

theorem sortBy_eq_of_perm {events' : List ExplorerEvent} (hperm : events'.Perm events)
    (hdistinct : (events.map eventIdentity).Nodup) :
    sortBy eventKey events' = sortBy eventKey events := by
  have h := (sortBy_sorted eventKey events').map_eq (sortBy_sorted eventKey events) (f := id)
    ((sortBy_perm _ _).trans (hperm.trans (sortBy_perm _ _).symm)) ?_
  · simpa using h
  · intro a ha b hb hkey
    have hmem : ∀ e ∈ sortBy eventKey events', e ∈ events := fun e he =>
      hperm.mem_iff.mp ((sortBy_perm _ _).mem_iff.mp he)
    refine inj_on_of_nodup_map hdistinct (hmem a ha) (hmem b hb) ?_
    have hseq : a.seq.toNat = b.seq.toNat := congrArg (fun k => (ofLex k).1) hkey
    have hsource : a.source = b.source := congrArg (fun k => (ofLex (ofLex k).2).1) hkey
    exact Prod.ext (UInt64.toNat_inj.mp hseq) hsource

/-- **Events with different identities are conserved, and their order plays no part.** -/
theorem analyzeBounded_conserves (eventsAvailable : Nat) (events : List ExplorerEvent)
    (seed : MatchingSeed) (hdistinct : (events.map eventIdentity).Nodup) :
    (∀ events', events'.Perm events →
      analyzeBounded eventsAvailable events' seed = analyzeBounded eventsAvailable events seed) ∧
    ∀ a, analyzeBounded eventsAvailable events seed = .ok a →
      ∃ renderings isPartial,
        deriveRenderEpisodes (sortBy eventKey events) = .ok (renderings, isPartial) ∧
        (paired (correlate renderings).groups).Perm (finRange renderings.length) ∧
        (correlateRenderings renderings).1.Perm
          ((correlate renderings).groups.map (summarize renderings)) ∧
        (((correlateRenderings renderings).1.flatMap (·.2.citations)).map
          ExceptionEventCitation.identity).Nodup ∧
        (∀ o ∈ (correlateRenderings renderings).1, ∀ c ∈ o.2.citations, ∃ e ∈ events,
          c.seq = e.seq ∧ c.source = e.source ∧ c.templateId = e.templateId) ∧
        ((correlateRenderings renderings).1.map (·.2.rawRecordCount)).sum =
          a.rawExceptionRecordCount ∧
        ((correlateRenderings renderings).1.map fun o =>
          o.2.applicationRecordCount + o.2.stderrRecordCount).sum = a.rawExceptionRecordCount ∧
        ((correlateRenderings renderings).1.map (·.2.renderingCount)).sum =
          a.renderingEpisodeCount ∧
        a.coverage.duplicates = 0 := by
  constructor
  · intro events' hperm
    unfold analyzeBounded
    rw [sortBy_eq_of_perm hperm hdistinct, hperm.length_eq]
  · intro a ha
    unfold analyzeBounded at ha
    obtain ⟨⟨renderings, isPartial⟩, hderive, ha⟩ := except_bind_ok.mp ha
    cases ha
    have hsorted : ((sortBy eventKey events).map eventIdentity).Nodup :=
      ((sortBy_perm _ _).map _).nodup_iff.mpr hdistinct
    have hnodup := citations_nodup hsorted hderive
    refine ⟨renderings, isPartial, hderive, correlate_partition renderings,
      occurrences_perm renderings, ?_, ?_, ?_, ?_, ?_, ?_⟩
    · exact ((occurrence_citations hnodup).map _).nodup_iff.mpr hnodup
    · intro o ho c hc
      have hcited := (occurrence_citations hnodup).mem_iff.mp (mem_flatMap.mpr ⟨o, ho, hc⟩)
      obtain ⟨e, he, h⟩ := event_of_citation hderive hcited
      exact ⟨e, (sortBy_perm _ _).mem_iff.mp he, h⟩
    · exact (raw_conserved hnodup).trans (records_sum renderings).symm
    · show _ = recordsOf .applicationFullStack renderings + recordsOf _ renderings
      rw [sum_occurrences renderings fun o => o.applicationRecordCount + o.stderrRecordCount,
        records_sum, ← sum_groups]
      refine congrArg List.sum (map_congr_left fun g _ => ?_)
      rw [summarize_records, records_sum]
    · show _ = renderings.length
      rw [sum_occurrences]
      simp only [summarize_renderings]
      have h := (correlate_partition renderings).length_eq
      unfold paired at h
      rwa [length_flatMap, length_finRange] at h
    · exact duplicates_eq_zero hnodup _ _ _

def sampleEvents : List ExplorerEvent :=
  [⟨1, 100, .explicitWallClock, .explicitWall, none, .wall, "error", none, none, 7, none,
      "[stderr] a.TopError: x", "app.log"⟩,
    ⟨2, 100, .explicitWallClock, .explicitWall, none, .wall, "error", none, none, 8, none,
      "[stderr] at b", "app.log"⟩]

theorem sampleEvents_conserved :
    ∃ a, analyzeBounded 2 sampleEvents {} = .ok a ∧ a.coverage.duplicates = 0 ∧
      analyzeBounded 2 sampleEvents.reverse {} = .ok a := by
  have hreturns : (analyzeBounded 2 sampleEvents {}).toBool = true := by decide +kernel
  have h := analyzeBounded_conserves 2 sampleEvents {} (by decide)
  cases ha : analyzeBounded 2 sampleEvents {} with
  | error stop =>
    rw [ha] at hreturns
    cases hreturns
  | ok a =>
    obtain ⟨_, _, _, _, _, _, _, _, _, _, hduplicates⟩ := h.2 a ha
    exact ⟨a, rfl, hduplicates, (h.1 _ (reverse_perm _)).trans ha⟩

end ContextDesk.LogAnalysis.Exceptions
