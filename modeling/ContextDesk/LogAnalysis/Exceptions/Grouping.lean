import ContextDesk.LogAnalysis.Exceptions.Matching

/-!
# Every rendering is in one group

`correlate` partitions the renderings (`correlate_partition`). The chains and the application
renderings that are still free are always the application renderings (`Chained`), a matched chain
gives its members and one wrapped rendering that no chain had (`Matched`), and a pair of the maximum
matching has ends that no group has.
-/

namespace ContextDesk.LogAnalysis.Exceptions

open Lib List

variable {renderings : List RenderEpisode}

theorem mem_ofKind {kind : ExceptionRenderingKind} {i : Idx renderings} :
    i ∈ ofKind renderings kind ↔ (episode i).kind = kind := by
  unfold ofKind
  rw [(sortBy_perm _ _).mem_iff]
  simp

theorem ofKind_nodup (kind : ExceptionRenderingKind) : (ofKind renderings kind).Nodup :=
  (sortBy_perm _ _).nodup_iff.mpr ((nodup_finRange _).filter _)

/-! ## Chains -/

theorem cons_filter_perm {α : Type} [DecidableEq α] {l : List α} {a : α} (hl : l.Nodup)
    (ha : a ∈ l) : (a :: l.filter (· ≠ a)).Perm l := by
  refine (perm_ext_iff_of_nodup ?_ hl).mpr fun b => ?_
  · exact nodup_cons.mpr ⟨by simp, hl.filter _⟩
  · by_cases hb : b = a
    · simp [hb, ha]
    · simp [hb]

theorem mem_of_forced {chain free : List (Idx renderings)} {chainTrace : Option String} {u : Bool}
    {c : Idx renderings × LinkConfidence}
    (h : c ∈ sortBy forcedKey (forcedCandidates chain free
      (chainCandidates chain chainTrace u free))) : c.1 ∈ free := by
  have hc := (mem_filter.mp ((sortBy_perm _ _).mem_iff.mp h)).1
  obtain ⟨other, hfree, hlink⟩ := mem_filterMap.mp hc
  obtain ⟨conf, -, rfl⟩ := Option.map_eq_some_iff.mp hlink
  exact hfree

theorem growChain_perm (u : Bool) (fuel : Nat) (chain : List (Idx renderings))
    (chainTrace : Option String) {free : List (Idx renderings)} (hfree : free.Nodup) :
    ((growChain u fuel chain chainTrace free).1 ++
      (growChain u fuel chain chainTrace free).2.1).Perm (chain ++ free) := by
  induction fuel generalizing chain chainTrace free with
  | zero => exact .refl _
  | succ fuel ih =>
    unfold growChain
    dsimp only
    split
    · exact .refl _
    · rename_i pick conf rest hsort
      have hpick : pick ∈ free :=
        mem_of_forced (c := (pick, conf)) (hsort ▸ mem_cons_self)
      refine (ih (chain ++ [pick]) _ (hfree.filter _)).trans ?_
      rw [append_assoc]
      exact (cons_filter_perm hfree hpick).append_left chain

/-- The chains and the free renderings are the application renderings. -/
def Chained (s : ChainState renderings) : Prop :=
  (s.chains.flatten ++ s.free).Perm (appIdxs renderings)

theorem Chained.free_nodup {s : ChainState renderings} (h : Chained s) : s.free.Nodup :=
  (nodup_append.mp (h.nodup_iff.mpr (ofKind_nodup _))).2.1

theorem chained_seedChain {s : ChainState renderings} (h : Chained s) (seed : Idx renderings) :
    Chained (seedChain s seed) := by
  unfold seedChain
  split
  · exact h
  · rename_i hseed
    have hmem : seed ∈ s.free := not_not.mp hseed
    have hnodup := h.free_nodup
    have hgrow := growChain_perm (exactAnchorComponentIsUnique seed)
      (s.free.filter (· ≠ seed)).length [seed] (signals seed).traceId (hnodup.filter (· ≠ seed))
    unfold Chained at h ⊢
    dsimp only
    rw [flatten_append, flatten_cons, flatten_nil, append_nil,
      append_assoc]
    refine (hgrow.append_left _).trans (.trans ?_ h)
    exact (cons_filter_perm hnodup hmem).append_left _

theorem chained_buildChains : Chained (buildChains renderings) := by
  unfold buildChains
  refine List.foldlRecOn (motive := Chained) _ seedChain (.refl _) fun s hs seed _ => ?_
  exact chained_seedChain hs seed

theorem chains_nodup : (buildChains renderings).chains.flatten.Nodup :=
  (nodup_append.mp (chained_buildChains.nodup_iff.mpr (ofKind_nodup _))).1

theorem kind_of_mem_chain {i : Idx renderings}
    (hi : i ∈ (buildChains renderings).chains.flatten) :
    (episode i).kind = .applicationFullStack :=
  mem_ofKind.mp (chained_buildChains.mem_iff.mp (mem_append_left _ hi))

/-! ## Matched chains -/

theorem chainEdges_chains (chains : List (List (Idx renderings))) :
    (chainEdges renderings chains).flatMap (·.chain) = chains.flatten := by
  unfold chainEdges
  rw [flatMap_def, map_map]
  congr 1
  exact zipIdx_map_fst 0 chains

theorem chainEdges_places (chains : List (List (Idx renderings))) :
    ((chainEdges renderings chains).map (·.place)).Nodup := by
  unfold chainEdges
  rw [map_map]
  show ((chains.zipIdx).map Prod.snd).Nodup
  rw [zipIdx_map_snd]
  exact nodup_range'

variable {c : ChainEdges renderings}

theorem wrapped_of_edge {chains : List (List (Idx renderings))}
    (hc : c ∈ chainEdges renderings chains) {e : Idx renderings × ExceptionCorrelationConfidence}
    (he : e ∈ c.edges) : (episode e.1).kind = .separatelyWrappedRecords := by
  obtain ⟨⟨chain, place⟩, -, rfl⟩ := mem_map.mp hc
  obtain ⟨w, hw, hconf⟩ := mem_filterMap.mp ((sortBy_perm _ _).mem_iff.mp he)
  obtain ⟨conf, -, rfl⟩ := Option.map_eq_some_iff.mp hconf
  exact mem_ofKind.mp hw

/-- What the groups have of the chains seen so far: the matched ones, and a wrapped rendering for
each. -/
structure Matched (seen : List (ChainEdges renderings)) (s : MatchState renderings) : Prop where
  places : ∀ p ∈ s.matched, p ∈ seen.map (·.place)
  nodup : s.usedWrap.Nodup
  wrapped : ∀ w ∈ s.usedWrap, (episode w).kind = .separatelyWrappedRecords
  groups : (paired s.groups).Perm
    ((seen.filter fun c => c.place ∈ s.matched).flatMap (·.chain) ++ s.usedWrap)

variable {seen : List (ChainEdges renderings)}

variable {s : MatchState renderings}

theorem Matched.skip {s' : MatchState renderings} (h : Matched seen s)
    (hc : c.place ∉ seen.map (·.place)) (hmatched : s'.matched = s.matched)
    (hused : s'.usedWrap = s.usedWrap) (hgroups : s'.groups = s.groups) :
    Matched (seen ++ [c]) s' where
  places p hp := by
    rw [hmatched] at hp
    rw [map_append]
    exact mem_append_left _ (h.places p hp)
  nodup := hused ▸ h.nodup
  wrapped := hused ▸ h.wrapped
  groups := by
    have hnot : c.place ∉ s.matched := fun hp => hc (h.places _ hp)
    rw [hmatched, hused, hgroups, filter_append, filter_cons_of_neg (by simpa using hnot),
      filter_nil, append_nil]
    exact h.groups

theorem Matched.take (h : Matched seen s) (hc : c.place ∉ seen.map (·.place)) {w : Idx renderings}
    (hw : (episode w).kind = .separatelyWrappedRecords) (hnew : w ∉ s.usedWrap)
    (signature : Chars) (conf : ExceptionCorrelationConfidence) :
    Matched (seen ++ [c])
      { s with
        usedWrap := w :: s.usedWrap
        matched := c.place :: s.matched
        groups := s.groups ++ [⟨signature, c.chain ++ [w], conf⟩] } where
  places p hp := by
    rw [map_append]
    rcases mem_cons.mp hp with rfl | hp
    · exact mem_append_right _ mem_cons_self
    · exact mem_append_left _ (h.places p hp)
  nodup := nodup_cons.mpr ⟨hnew, h.nodup⟩
  wrapped w' hw' := by
    rcases mem_cons.mp hw' with rfl | hw'
    · exact hw
    · exact h.wrapped w' hw'
  groups := by
    have hsame : (seen.filter fun d => d.place ∈ c.place :: s.matched) =
        seen.filter fun d => d.place ∈ s.matched := by
      refine filter_congr fun d hd => ?_
      have hne : d.place ≠ c.place := fun he => hc (he ▸ mem_map.mpr ⟨d, hd, rfl⟩)
      simp [hne]
    show (paired (s.groups ++ [⟨signature, c.chain ++ [w], conf⟩])).Perm _
    rw [filter_append, hsame, filter_cons_of_pos (by simp), filter_nil,
      flatMap_append, flatMap_cons, flatMap_nil, append_nil]
    unfold paired
    rw [flatMap_append, flatMap_cons, flatMap_nil, append_nil]
    refine (h.groups.append_right _).trans ?_
    rw [append_assoc, append_assoc]
    refine List.Perm.append_left _ ?_
    rw [← append_assoc]
    refine (perm_append_comm.append_right _).trans ?_
    rw [append_assoc]
    exact List.Perm.append_left _ perm_append_comm

variable {order : List (ChainEdges renderings)}

theorem matched_matchChain (h : Matched seen s) (hc : c.place ∉ seen.map (·.place))
    (hedges : ∀ e ∈ c.edges, (episode e.1).kind = .separatelyWrappedRecords) :
    Matched (seen ++ [c]) (matchChain order s c) := by
  unfold matchChain
  split
  · exact h.skip hc rfl rfl rfl
  · rename_i w conf hpartners
    have hpartner : (w, conf) ∈ uniquePartners order s c := hpartners ▸ mem_cons_self
    obtain ⟨hedge, hfree⟩ := mem_filter.mp hpartner
    rw [Bool.and_eq_true, decide_eq_true_eq] at hfree
    split
    · exact h.skip hc rfl rfl rfl
    · split
      · exact h.skip hc rfl rfl rfl
      · exact h.take hc (hedges _ hedge) hfree.1 _ _
  · exact h.skip hc rfl rfl rfl

theorem matched_foldl
    (hedges : ∀ c ∈ order, ∀ e ∈ c.edges, (episode e.1).kind = .separatelyWrappedRecords)
    (hplaces : (order.map (·.place)).Nodup) (hs : Matched [] s) :
    Matched order (order.foldl (matchChain order) s) := by
  have h : ∀ (rest seen : List (ChainEdges renderings)) (s : MatchState renderings),
      order = seen ++ rest → Matched seen s →
      Matched order (rest.foldl (matchChain order) s) := by
    intro rest
    induction rest with
    | nil =>
      intro seen s horder hs
      rw [horder, append_nil]
      exact hs
    | cons c rest ih =>
      intro seen s horder hs
      have hc : c.place ∉ seen.map (·.place) := fun hmem => by
        rw [horder, map_append] at hplaces
        exact (nodup_append.mp hplaces).2.2 _ hmem _ mem_cons_self rfl
      refine ih (seen ++ [c]) _ (by rw [horder, append_assoc]; rfl)
        (matched_matchChain hs hc ?_)
      exact hedges c (horder ▸ mem_append_right _ mem_cons_self)
  exact h order [] s rfl hs

/-! ## Pairs -/

theorem paired_append (groups groups' : List (CorrelationGroup renderings)) :
    paired (groups ++ groups') = paired groups ++ paired groups' := flatMap_append

variable {groups : List (CorrelationGroup renderings)}

theorem mem_remaining {kind : ExceptionRenderingKind} {i : Idx renderings} :
    i ∈ remaining kind groups ↔ (episode i).kind = kind ∧ i ∉ paired groups := by
  unfold remaining
  simp

theorem duals_apart {apps wraps : List (Idx renderings)}
    (happs : apps = remaining .applicationFullStack groups)
    (hwraps : wraps = remaining .separatelyWrappedRecords groups) :
    (∀ p ∈ (bipartiteUniqueDuals apps wraps).1, p.1 ∈ apps ∧ p.2.1 ∈ wraps) ∧
      (bipartiteUniqueDuals apps wraps).1.Pairwise fun p q => p.1 ≠ q.1 ∧ p.2.1 ≠ q.2.1 := by
  have happs : apps.Nodup := happs ▸ (nodup_finRange _).filter _
  have hnodup : wraps.Nodup := hwraps ▸ (nodup_finRange _).filter _
  have hmatch := Augment.search_matches (dualEdges wraps) DualEdge.wrap (apps.length + 1) happs
  constructor
  · rintro p hp
    obtain ⟨w, hw, hpair⟩ := mem_filterMap.mp hp
    obtain ⟨a, ha, rfl⟩ := Option.map_eq_some_iff.mp hpair
    exact ⟨hmatch.among w a ha, hw⟩
  · refine pairwise_filterMap.mpr (List.Pairwise.imp ?_ hnodup)
    intro w w' hne p hp q hq
    obtain ⟨a, ha, rfl⟩ := Option.map_eq_some_iff.mp hp
    obtain ⟨a', ha', rfl⟩ := Option.map_eq_some_iff.mp hq
    refine ⟨fun he => hne (hmatch.injective w w' a ha ?_), hne⟩
    exact ha'.trans (congrArg some he.symm)

theorem duals_nodup
    {pairs : List (Idx renderings × Idx renderings × ExceptionCorrelationConfidence)}
    (hgroups : (paired groups).Nodup)
    (hfree : ∀ p ∈ pairs, p.1 ∈ remaining .applicationFullStack groups ∧
      p.2.1 ∈ remaining .separatelyWrappedRecords groups)
    (hapart : pairs.Pairwise fun p q => p.1 ≠ q.1 ∧ p.2.1 ≠ q.2.1) :
    (paired (groups ++ pairs.map dualGroup)).Nodup := by
  rw [paired_append]
  have hkinds : ∀ p ∈ pairs, ∀ q ∈ pairs, p.1 ≠ q.2.1 := fun p hp q hq he => by
    have happ := (mem_remaining.mp (hfree p hp).1).1
    have hwrap := (mem_remaining.mp (hfree q hq).2).1
    rw [he, hwrap] at happ
    cases happ
  have hmembers : paired (pairs.map dualGroup) = pairs.flatMap fun p => [p.1, p.2.1] := by
    unfold paired
    rw [flatMap_map]
    rfl
  rw [hmembers]
  refine nodup_append.mpr ⟨hgroups, nodup_flatMap.mpr ⟨fun p hp => ?_, ?_⟩, ?_⟩
  · simpa using hkinds p hp p hp
  · refine hapart.imp_of_mem fun {p q} hp hq hne => ?_
    have h := hkinds p hp q hq
    have h' := hkinds q hq p hp
    simp only [Function.onFun, disjoint_cons_left, mem_cons, not_mem_nil, or_false,
      disjoint_nil_left, and_true, not_or]
    exact ⟨⟨hne.1, h⟩, fun he => h' he.symm, hne.2⟩
  · intro i hi j hj he
    obtain ⟨p, hp, hj⟩ := mem_flatMap.mp hj
    obtain ⟨happ, hwrap⟩ := hfree p hp
    have hnot : j ∉ paired groups := by
      rcases mem_cons.mp hj with rfl | hj
      · exact (mem_remaining.mp happ).2
      · rw [mem_singleton.mp hj]
        exact (mem_remaining.mp hwrap).2
    exact hnot (he ▸ hi)

/-! ## All passes -/

/-- The chains that were matched and those that form a group by themselves share no rendering, and
the wrapped renderings in use are none of theirs. -/
theorem chained_nodup {edges : List (ChainEdges renderings)} (hperm : order.Perm edges)
    (hchains : (edges.flatMap (·.chain)).Nodup)
    (happs : ∀ i ∈ edges.flatMap (·.chain), (episode i).kind = .applicationFullStack)
    (h : Matched order s) :
    (paired (s.groups ++ multiApplicationGroups edges s.matched)).Nodup := by
  have hmulti : paired (multiApplicationGroups edges s.matched) =
      (edges.filter fun c => c.place ∉ s.matched && 1 < c.chain.length).flatMap (·.chain) := by
    unfold paired multiApplicationGroups
    rw [flatMap_map]
  have hsplit : ((edges.filter fun c => c.place ∈ s.matched) ++
      edges.filter fun c => c.place ∉ s.matched && 1 < c.chain.length).Sublist
      ((edges.filter fun c => c.place ∈ s.matched) ++
        edges.filter fun c => !(decide (c.place ∈ s.matched))) := by
    refine List.Sublist.append (.refl _) ?_
    refine monotone_filter_right _ fun c hc => ?_
    simp only [Bool.and_eq_true] at hc
    simpa using hc.1
  have hboth : ((edges.filter fun c => c.place ∈ s.matched).flatMap (·.chain) ++
      (edges.filter fun c => c.place ∉ s.matched && 1 < c.chain.length).flatMap
        (·.chain)).Nodup := by
    rw [← flatMap_append]
    refine (hsplit.flatMap (f := fun c => c.chain)).nodup ?_
    exact ((filter_append_perm _ edges).flatMap_right _).nodup_iff.mpr hchains
  have hgroups : (paired s.groups).Perm
      ((edges.filter fun c => c.place ∈ s.matched).flatMap (·.chain) ++ s.usedWrap) :=
    h.groups.trans (((hperm.filter _).flatMap_right _).append_right _)
  rw [paired_append, hmulti]
  refine ((hgroups.append_right _).trans ?_).nodup_iff.mpr
    (nodup_append.mpr ⟨hboth, h.nodup, ?_⟩)
  · rw [append_assoc, append_assoc]
    exact List.Perm.append_left _ perm_append_comm
  · intro i hi w hw he
    have hi' : i ∈ edges.flatMap (·.chain) := by
      rcases mem_append.mp hi with hi | hi
      all_goals
        obtain ⟨c, hc, hmem⟩ := mem_flatMap.mp hi
        exact mem_flatMap.mpr ⟨c, mem_of_mem_filter hc, hmem⟩
    have hwrap := h.wrapped w hw
    rw [← he, happs i hi'] at hwrap
    cases hwrap

theorem alone_perm (h : (paired groups).Nodup) :
    (paired groups ++ (finRange renderings.length).filter fun i => i ∉ paired groups).Perm
      (finRange renderings.length) := by
  refine (perm_ext_iff_of_nodup ?_ (nodup_finRange _)).mpr fun i => ?_
  · refine nodup_append.mpr ⟨h, (nodup_finRange _).filter _, ?_⟩
    intro i hi j hj he
    simpa [← he, hi] using (mem_filter.mp hj).2
  · by_cases hi : i ∈ paired groups <;> simp [hi]

/-- **Each rendering is in exactly one group.** -/
theorem correlate_partition (renderings : List RenderEpisode) :
    (paired (correlate renderings).groups).Perm (finRange renderings.length) := by
  have hedges : ((chainEdges renderings (buildChains renderings).chains).flatMap (·.chain)).Nodup :=
    chainEdges_chains _ ▸ chains_nodup
  have hperm := sortBy_perm chainOrderKey (chainEdges renderings (buildChains renderings).chains)
  unfold correlate
  dsimp only
  rw [paired_append]
  have halone : ∀ l : List (Idx renderings),
      paired (l.map fun i => ⟨(episode i).signature, [i], .uncorrelated⟩) = l := fun l => by
    unfold paired
    rw [flatMap_map]
    exact flatMap_singleton' l
  rw [halone]
  refine alone_perm ?_
  generalize hs : List.foldl _ _ _ = s
  have hmatched : Matched _ s := hs ▸ matched_foldl
    (fun c hc e he => wrapped_of_edge (hperm.mem_iff.mp hc) he)
    ((hperm.map _).nodup_iff.mpr (chainEdges_places _))
    ⟨fun _ h => absurd h not_mem_nil, nodup_nil, fun _ h => absurd h not_mem_nil,
      .refl _⟩
  obtain ⟨hfree, hapart⟩ := duals_apart rfl rfl
  refine duals_nodup (chained_nodup hperm hedges ?_ hmatched)
    (fun p hp => hfree p (mem_of_mem_filter hp)) (hapart.filter _)
  rw [chainEdges_chains]
  exact fun i hi => kind_of_mem_chain hi

end ContextDesk.LogAnalysis.Exceptions
