import ContextDesk.VectorIndexRuns

/-!
# What the navigable graph can miss

With a candidate list as long as the index a search of the graph still finds only what the entry
leads to (`mem_searchLayer`): edges are cut one way when a list gets too long, a vector stored again
chooses new neighbours, and a removal links nothing in place of what it took away. So the positive
hits of `HnswIndex` are those of `ExactIndex` that can be reached. While no more vectors are stored
than a new one may choose as neighbours the graph stays complete (`Complete`), and both return the
same.
-/

namespace ContextDesk.VectorIndex

open Lib.BestFirst List

variable {F : Type} [LinearOrder F] [Zero F] (cosine : Cosine F)

def positiveIds (hits : List (UInt64 × F)) : Set UInt64 := {id | ∃ s, 0 < s ∧ (id, s) ∈ hits}

def HnswState.reachable (st : HnswState F) : Set UInt64 :=
  {id | ∃ entry, st.entry = some entry ∧
    Relation.ReflTransGen (fun a b => b ∈ neighbours st.graph a) entry id}

/-! ## A search with room for everything -/

variable {m : Nat} {st : HnswState F} {entry : UInt64}

theorem mem_searchLayer (h : WellFormed m st) (hentry : st.entry = some entry) (query : List F)
    {ef : Nat} (hef : st.len ≤ ef) (filter : Option (List UInt64)) (id : UInt64) :
    id ∈ (searchLayer cosine st query entry ef filter).map Prod.fst ↔
      admits filter id = true ∧ id ∈ st.reachable := by
  obtain ⟨sc, hsc, e⟩ := walkLayer_eq cosine query ef filter (h.entry_stored entry hentry)
  have hclosed : ∀ a, ∀ b ∈ (layer cosine st query ef filter).next a,
      (layer cosine st query ef filter).score b ≠ none :=
    fun a b hb => (layer_score cosine query ef filter).mpr (h.stored a b hb)
  have hwide : st.vectors.keys.length ≤ (layer cosine st query ef filter).width := by
    rw [length_keys]
    exact hef
  have hkept := mem_kept_iff (layer_keys cosine query ef filter) hclosed hwide hsc
    (Nat.le_refl _) (n := id)
  rw [searchLayer, ((descending_perm _).map Prod.fst).mem_iff, e, hkept]
  refine and_congr_right fun _ => ⟨fun hr => ⟨entry, hentry, hr⟩, ?_⟩
  rintro ⟨entry', hentry', hr⟩
  rw [hentry] at hentry'
  cases hentry'
  exact hr

theorem length_searchLayer_le (h : WellFormed m st) (hentry : st.entry = some entry)
    (query : List F) {ef : Nat} (hef : 0 < ef) (filter : Option (List UInt64)) :
    (searchLayer cosine st query entry ef filter).length ≤ st.len := by
  have hhits := searchLayer_hits cosine query ef filter (h.entry_stored entry hentry) hef
  have hsub : (searchLayer cosine st query entry ef filter).map Prod.fst ⊆ st.vectors.keys := by
    intro id hid
    obtain ⟨p, hp, rfl⟩ := mem_map.mp hid
    obtain ⟨v, hv, -⟩ := hhits.scored p hp
    rw [mem_keys, ← AList.lookup_isSome, hv, Option.isSome_some]
  have hle := (hhits.nodup.subperm hsub).length_le
  rwa [length_map, length_keys] at hle

/-! ## Both indexes -/

theorem store_vectors (m efConstruction : Nat) (st : HnswState F) (id : UInt64)
    (normed : List F) :
    (st.store cosine m efConstruction id normed).vectors = st.vectors.insert id normed := by
  unfold HnswState.store
  split <;> rfl

variable {index : HnswIndex F} {exact : ExactIndex F}

theorem apply_vectors (h : exact.inner = index.state.vectors) (op : Op F) :
    (exact.apply cosine op).inner = (index.apply cosine op).state.vectors := by
  cases op with
  | upsert id vector =>
    by_cases hv : vector = []
    · simpa [HnswIndex.apply, HnswIndex.upsert, ExactIndex.apply, ExactIndex.upsert, hv,
        Except.toOption] using h
    · simp only [HnswIndex.apply, HnswIndex.upsert, ExactIndex.apply, ExactIndex.upsert, if_neg hv,
        Except.toOption, Option.getD_some, store_vectors, h]
  | remove id iter => exact congrArg (AList.erase id) h

theorem applyAll_vectors (h : exact.inner = index.state.vectors) (ops : List (Op F)) :
    (exact.applyAll cosine ops).inner = (index.applyAll cosine ops).state.vectors := by
  induction ops generalizing index exact with
  | nil => exact h
  | cons op ops ih => exact ih (apply_vectors cosine h op)

variable {vectors : HashMap (List F)} {k : Nat} {id : UInt64}

theorem mem_positiveIds_scan (hk : vectors.entries.length ≤ k) (q : List F)
    (filter : Option (List UInt64)) (iter : IterOrder) :
    id ∈ positiveIds (scan cosine vectors q k filter iter) ↔
      admits filter id = true ∧
        ∃ v, vectors.lookup id = some v ∧ 0 < cosine.cosineSimilarity q v := by
  simp only [positiveIds, Set.mem_ofPred_eq, mem_scan cosine q filter hk]
  constructor
  · rintro ⟨s, hs, ⟨v, hv, rfl⟩, hadm, -⟩
    exact ⟨hadm, v, hv, hs⟩
  · rintro ⟨hadm, v, hv, hs⟩
    exact ⟨_, hs, ⟨v, hv, rfl⟩, hadm, hs⟩

/-- The positive hits of a list that holds an id exactly when a condition does. -/
theorem Hits.mem_positiveIds {q : List F} {filter : Option (List UInt64)}
    {hits : List (UInt64 × F)} (h : Hits cosine vectors q k filter hits) :
    id ∈ positiveIds hits ↔ id ∈ hits.map Prod.fst ∧
      ∃ v, vectors.lookup id = some v ∧ 0 < cosine.cosineSimilarity q v := by
  constructor
  · rintro ⟨s, hs, hmem⟩
    obtain ⟨v, hv, rfl⟩ := h.scored _ hmem
    exact ⟨mem_map_of_mem hmem, v, hv, hs⟩
  · rintro ⟨hmem, v, hv, hs⟩
    obtain ⟨p, hp, rfl⟩ := mem_map.mp hmem
    obtain ⟨v', hv', e⟩ := h.scored p hp
    rw [hv] at hv'
    cases hv'
    exact ⟨p.2, e ▸ hs, hp⟩

/-- What `HnswIndex` finds above zero, beside what `ExactIndex` finds. -/
theorem Settled.positiveIds_search (h : Settled index) (hsame : exact.inner = index.state.vectors)
    (query : List F) (hk : index.state.len ≤ k) (filter : Option (List UInt64))
    (iter iter' : IterOrder) (id : UInt64) :
    id ∈ positiveIds (index.search cosine query k filter iter) ↔
      id ∈ positiveIds (exact.search cosine query k filter iter') ∧
        (id ∈ index.state.reachable ∨
          filter ≠ none ∧ ∀ n ∈ index.state.reachable, admits filter n = false) := by
  have hwf := h.wellFormed
  unfold HnswIndex.search ExactIndex.search
  by_cases hnothing : k = 0 ∨ query = []
  · simp [if_pos hnothing, positiveIds]
  rw [if_neg hnothing, if_neg hnothing, hsame, mem_positiveIds_scan cosine hk]
  cases hentry : index.state.entry with
  | none =>
    have hempty : ¬ index.state.vectors.entries ≠ [] := by
      rw [← hwf.entry_isSome, hentry]
      simp
    have hnot : index.state.vectors.lookup id = none := by
      rw [AList.lookup_eq_none]
      exact fun hid => hempty (entries_ne_nil.mpr ⟨id, hid⟩)
    simp [positiveIds, hnot]
  | some entry =>
    have hef : index.state.len ≤ max index.efSearch k := hk.trans (le_max_right _ _)
    have hef' : 0 < max index.efSearch k := h.search_pos.trans_le (le_max_left _ _)
    have hmem := mem_searchLayer cosine hwf hentry (cosine.l2Normalize query) hef filter
    have hhits := searchLayer_hits cosine (cosine.l2Normalize query) (max index.efSearch k) filter
      (hwf.entry_stored entry hentry) hef'
    have hlen := length_searchLayer_le cosine hwf hentry (cosine.l2Normalize query) hef' filter
    simp only
    generalize searchLayer cosine index.state (cosine.l2Normalize query) entry
      (max index.efSearch k) filter = w at hmem hhits hlen ⊢
    by_cases hfall : w = [] ∧ filter ≠ none
    · rw [if_pos hfall, mem_positiveIds_scan cosine hk]
      refine ⟨fun hid => ⟨hid, Or.inr ⟨hfall.2, fun n hn => ?_⟩⟩, And.left⟩
      by_contra hadm
      have hin := (hmem n).mpr ⟨by simpa using hadm, hn⟩
      rw [hfall.1] at hin
      exact absurd hin not_mem_nil
    · rw [if_neg hfall, take_of_length_le (hlen.trans hk), hhits.mem_positiveIds, hmem]
      constructor
      · rintro ⟨⟨hadm, hreach⟩, hv⟩
        exact ⟨⟨hadm, hv⟩, Or.inl hreach⟩
      · rintro ⟨⟨hadm, hv⟩, hreach | ⟨hsome, hnone⟩⟩
        · exact ⟨⟨hadm, hreach⟩, hv⟩
        · -- nothing that passes the filter is reached, so the walk kept nothing
          refine absurd ⟨eq_nil_iff_forall_not_mem.mpr fun p hp => ?_, hsome⟩ hfall
          obtain ⟨hp1, hp2⟩ := (hmem p.1).mp (mem_map_of_mem hp)
          rw [hnone p.1 hp2] at hp1
          cases hp1

/-! ## While the graph is complete -/

def Complete (st : HnswState F) : Prop :=
  ∀ a b, a ∈ st.vectors → b ∈ st.vectors → a ≠ b → b ∈ neighbours st.graph a

omit [LinearOrder F] [Zero F] in
theorem Complete.mem_reachable {m : Nat} {st : HnswState F} (hc : Complete st)
    (h : WellFormed m st) {id : UInt64} (hid : id ∈ st.vectors) : id ∈ st.reachable := by
  obtain ⟨entry, hentry⟩ :=
    Option.isSome_iff_exists.mp (h.entry_isSome.mpr (entries_ne_nil.mpr ⟨id, hid⟩))
  refine ⟨entry, hentry, ?_⟩
  by_cases e : entry = id
  · rw [e]
  · exact Relation.ReflTransGen.single (hc entry id (h.entry_stored entry hentry) hid e)

omit [LinearOrder F] [Zero F] in
theorem Complete.remove {st : HnswState F} (hc : Complete st) (id : UInt64) (iter : IterOrder) :
    Complete (st.remove id iter) := by
  intro a b ha hb hne
  obtain ⟨ha1, ha2⟩ := AList.mem_erase.mp ha
  obtain ⟨hb1, hb2⟩ := AList.mem_erase.mp hb
  simp only [HnswState.remove]
  rw [neighbours_retain, neighbours_erase, if_neg ha1]
  exact mem_filter.mpr ⟨hc a b ha2 hb2 hne, by simpa using hb1⟩

omit [Zero F] in
theorem Linked.linkBack_room {graph : HashMap (List UInt64)} (h : Linked m vectors graph)
    {n : UInt64} (hid : id ∈ vectors) (hroom : vectors.entries.length ≤ 2 * m) :
    VectorIndex.linkBack cosine m vectors id graph n = graph.insert n (linked graph id n) := by
  obtain ⟨l, e, -, -, -, hwhole⟩ := linkBack_eq cosine m vectors id graph n
  have hsub : linked graph id n ⊆ vectors.keys := by
    intro x hx
    rcases mem_linked.mp hx with rfl | hx
    · exact mem_keys.mpr hid
    · exact mem_keys.mpr (h.stored n x hx)
  have hle := ((nodup_linked id (h.nodup n)).subperm hsub).length_le
  rw [length_keys] at hle
  rw [e, hwhole (hle.trans hroom)]

omit [Zero F] in
theorem Linked.linkBacks_room {m : Nat} {vectors : HashMap (List F)}
    {graph : HashMap (List UInt64)} (h : Linked m vectors graph) {id : UInt64}
    (hid : id ∈ vectors) (hroom : vectors.entries.length ≤ 2 * m) {l : List UInt64}
    (hl : ∀ n ∈ l, n ∈ vectors) {a x : UInt64}
    (hx : x ∈ neighbours graph a ∨ x = id ∧ a ∈ l) :
    x ∈ neighbours (l.foldl (VectorIndex.linkBack cosine m vectors id) graph) a := by
  induction l generalizing graph with
  | nil => simpa using hx
  | cons n l ih =>
    refine ih (h.linkBack cosine m hid (hl n mem_cons_self))
      (fun y hy => hl y (mem_cons_of_mem _ hy)) ?_
    rw [h.linkBack_room cosine hid hroom, neighbours_insert]
    by_cases e : a = n
    · rw [if_pos e, mem_linked]
      rcases hx with hx | ⟨hx, -⟩
      · exact Or.inl (Or.inr (e ▸ hx))
      · exact Or.inl (Or.inl hx)
    · rw [if_neg e]
      rcases hx with hx | ⟨hx, ha⟩
      · exact Or.inl hx
      · exact Or.inr ⟨hx, (mem_cons.mp ha).resolve_left e⟩

theorem Complete.mem_selected (hc : Complete st) (h : WellFormed m st)
    (hentry : st.entry = some entry) {efConstruction : Nat} (hef : 0 < efConstruction)
    (hlen : st.len ≤ m) (hlen' : st.len ≤ efConstruction) (normed : List F) {a : UInt64}
    (ha : a ∈ st.vectors) :
    a ∈ selectNeighbors (searchLayer cosine st normed entry efConstruction none) m := by
  have hle := length_searchLayer_le cosine h hentry normed hef none
  have hmem := (mem_searchLayer cosine h hentry normed hlen' none a).mpr ⟨rfl, hc.mem_reachable h ha⟩
  rw [selectNeighbors, take_of_length_le (by rw [length_descending]; omega)]
  exact ((descending_perm _).map Prod.fst).mem_iff.mpr hmem

theorem Complete.store (hc : Complete st) (h : WellFormed m st) {efConstruction : Nat}
    (hef : 0 < efConstruction) (hm : 0 < m) (hlen : st.len ≤ m) (hlen' : st.len ≤ efConstruction)
    (id : UInt64) (normed : List F) : Complete (st.store cosine m efConstruction id normed) := by
  intro a b ha hb hne
  rw [store_vectors, AList.mem_insert] at ha hb
  unfold HnswState.store
  by_cases hempty : st.vectors.entries = []
  · have hnot : ∀ n, n ∉ st.vectors := fun n hn => entries_ne_nil.mpr ⟨n, hn⟩ hempty
    exact absurd ((ha.resolve_right (hnot a)).trans (hb.resolve_right (hnot b)).symm) hne
  rw [if_neg hempty]
  obtain ⟨entry, hentry⟩ := Option.isSome_iff_exists.mp (h.entry_isSome.mpr hempty)
  have hselected := fun n => hc.mem_selected cosine h hentry hef hlen hlen' normed (a := n)
  have hhits := searchLayer_hits cosine normed efConstruction none (h.entry_stored entry hentry) hef
  obtain ⟨hnodup, hstored, hdeg⟩ := selectNeighbors_spec cosine m hhits
  simp only [hentry, Option.getD_some]
  generalize selectNeighbors (searchLayer cosine st normed entry efConstruction none) m = selected
    at hselected hnodup hstored hdeg
  have hlinked := h.toLinked.store id normed hnodup hstored (by omega)
  have hroom : (st.vectors.insert id normed).entries.length ≤ 2 * m := by
    have hkeys := length_erase_le (a := id) (l := st.vectors.keys)
    rw [length_keys] at hkeys
    rw [← length_keys, AList.keys_insert, length_cons]
    simp only [HnswState.len] at hlen
    omega
  refine hlinked.linkBacks_room cosine ((AList.mem_insert _).mpr (Or.inl rfl)) hroom
    (fun n hn => (AList.mem_insert _).mpr (Or.inr (hstored n hn))) ?_
  rw [neighbours_insert]
  by_cases hid : a = id
  · have hb' := hb.resolve_left fun e => hne (hid.trans e.symm)
    rw [if_pos hid]
    exact Or.inl (hselected b hb')
  · have ha' := ha.resolve_left hid
    rw [if_neg hid]
    rcases hb with rfl | hb
    · exact Or.inr ⟨rfl, hselected a ha'⟩
    · exact Or.inl (hc a b ha' hb hne)

/-- No vector is stored beside more than it may choose as neighbours. -/
def StaysSmall (index : HnswIndex F) : List (Op F) → Prop
  | [] => True
  | .upsert id vector :: ops =>
    index.state.len ≤ index.m ∧ index.state.len ≤ index.efConstruction ∧
      StaysSmall (index.apply cosine (.upsert id vector)) ops
  | .remove id iter :: ops => StaysSmall (index.apply cosine (.remove id iter)) ops

theorem Complete.applyAll (hc : Complete index.state) (h : Settled index) {ops : List (Op F)}
    (hsmall : StaysSmall cosine index ops) : Complete (index.applyAll cosine ops).state := by
  induction ops generalizing index with
  | nil => exact hc
  | cons op ops ih =>
    cases op with
    | remove id iter => exact ih (hc.remove id iter) (h.apply cosine _) hsmall
    | upsert id vector =>
      obtain ⟨hlen, hlen', hrest⟩ := hsmall
      refine ih ?_ (h.apply cosine _) hrest
      by_cases hv : vector = []
      · simpa [HnswIndex.apply, HnswIndex.upsert, hv, Except.toOption] using hc
      · simp only [HnswIndex.apply, HnswIndex.upsert, if_neg hv, Except.toOption, Option.getD_some]
        exact hc.store cosine h.wellFormed h.construction_pos h.m_pos hlen hlen' id _

theorem stored_of_positive {query : List F} {filter : Option (List UInt64)} {iter : IterOrder}
    (h : id ∈ positiveIds (exact.search cosine query k filter iter)) : id ∈ exact.inner := by
  obtain ⟨s, -, hmem⟩ := h
  unfold ExactIndex.search at hmem
  split at hmem
  · exact absurd hmem not_mem_nil
  · obtain ⟨v, hv, -⟩ := (scan_hits cosine _ filter exact.inner k iter).scored _ hmem
    rw [← AList.lookup_isSome, hv, Option.isSome_some]

/-- Asked for at least as many hits as are stored, the graph finds the positive hits of a full scan
that its entry leads to, or all of them when the filter keeps out everything the entry leads to;
while the index stays small, all of them. -/
theorem hnsw_positive_hits (m efConstruction efSearch : Nat) (ops : List (Op F)) (query : List F)
    (k : Nat) (filter : Option (List UInt64)) (iter iter' : IterOrder)
    (hk : ((HnswIndex.new m efConstruction efSearch).applyAll cosine ops).state.len ≤ k) :
    let index := (HnswIndex.new m efConstruction efSearch).applyAll cosine ops
    let found := positiveIds (index.search cosine query k filter iter)
    let all := positiveIds ((ExactIndex.new.applyAll cosine ops).search cosine query k filter iter')
    (∀ id, id ∈ found ↔ id ∈ all ∧ (id ∈ index.state.reachable ∨
      filter ≠ none ∧ ∀ n ∈ index.state.reachable, admits filter n = false)) ∧
    (StaysSmall cosine (HnswIndex.new m efConstruction efSearch) ops → found = all) := by
  intro index found all
  have hnew : Settled (HnswIndex.new (F := F) m efConstruction efSearch) :=
    settled_new m efConstruction efSearch
  have h : Settled index := hnew.applyAll cosine ops
  have hsame : (ExactIndex.new.applyAll cosine ops).inner = index.state.vectors :=
    applyAll_vectors cosine rfl ops
  have hfound := h.positiveIds_search cosine hsame query hk filter iter iter'
  refine ⟨hfound, fun hsmall => ?_⟩
  have hc : Complete index.state := by
    refine Complete.applyAll cosine (fun a _ ha => ?_) hnew hsmall
    exact absurd ha (AList.notMem_empty a)
  ext id
  rw [show id ∈ found ↔ _ from hfound id, and_iff_left_iff_imp]
  intro hall
  exact Or.inl (hc.mem_reachable h.wellFormed (hsame ▸ stored_of_positive cosine hall))

/-- Vectors of length one with whole coordinates: the product is the cosine. -/
def unitCosine : Cosine Int where
  l2Normalize v := v
  cosineSimilarity a b := max 0 (min 1 (List.zipWith (· * ·) a b).sum)

def asListed : IterOrder := ⟨fun l => l, fun _ => List.Perm.rfl⟩

/-- The last id is linked with four others only, and these are removed. -/
def cutOff : List (Op Int) :=
  [.upsert 0 [1, 0], .upsert 1 [0, 1], .upsert 2 [0, 1], .upsert 3 [0, 1], .upsert 4 [0, 1],
    .upsert 5 [0, 1], .remove 1 asListed, .remove 2 asListed, .remove 3 asListed,
    .remove 4 asListed]

theorem hnsw_positive_hits_cutOff :
    let index := (HnswIndex.new 4 16 16).applyAll unitCosine cutOff
    (5 ∈ positiveIds (index.search unitCosine [0, 1] 2 none asListed) ↔
      5 ∈ positiveIds
          ((ExactIndex.new.applyAll unitCosine cutOff).search unitCosine [0, 1] 2 none asListed) ∧
        (5 ∈ index.state.reachable ∨
          (none : Option (List UInt64)) ≠ none ∧
            ∀ n ∈ index.state.reachable, admits none n = false)) :=
  (hnsw_positive_hits unitCosine 4 16 16 cutOff [0, 1] 2 none asListed asListed
    (by decide +kernel)).1 5

/-- Two vectors are stored and two hits are asked for; the one above zero is missed. -/
theorem hnsw_misses_stored_vector :
    (∀ a b, unitCosine.cosineSimilarity a b = unitCosine.cosineSimilarity b a) ∧
    ((HnswIndex.new 4 16 16).applyAll unitCosine cutOff).state.len ≤ 2 ∧
    positiveIds (((HnswIndex.new 4 16 16).applyAll unitCosine cutOff).search unitCosine [0, 1] 2
        none asListed) ≠
      positiveIds ((ExactIndex.new.applyAll unitCosine cutOff).search unitCosine [0, 1] 2 none
        asListed) := by
  refine ⟨fun a b => ?_, by decide +kernel, fun e => ?_⟩
  · simp only [unitCosine]
    rw [zipWith_comm_of_comm mul_comm]
  · have hgraph : ((HnswIndex.new 4 16 16).applyAll unitCosine cutOff).search unitCosine [0, 1] 2
        none asListed = [(0, 0)] := by decide +kernel
    have hscan : (ExactIndex.new.applyAll unitCosine cutOff).search unitCosine [0, 1] 2 none
        asListed = [(5, 1)] := by decide +kernel
    have hmem : (5 : UInt64) ∈ positiveIds ((ExactIndex.new.applyAll unitCosine cutOff).search
        unitCosine [0, 1] 2 none asListed) := ⟨1, by decide, by simp [hscan]⟩
    rw [← e, hgraph] at hmem
    obtain ⟨s, hs, hin⟩ := hmem
    simp at hin

end ContextDesk.VectorIndex
