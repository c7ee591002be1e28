import ContextDesk.VectorIndex

/-!
# The navigable graph over whole runs

`Linked` is what the adjacency lists promise about the stored vectors, `WellFormed` adds the entry;
each operation keeps it, whatever the scores are and whichever key a removal picks as the next
entry. A search of a well-formed state ends after expanding each stored id at most once
(`walkLayer_ends`), and `Hits` is what it returns.
-/

namespace ContextDesk.VectorIndex

open Lib.BestFirst List

variable {F : Type}

/-! ## Maps -/

variable {β : Type}

theorem mem_keys {map : HashMap β} {id : UInt64} : id ∈ map.keys ↔ id ∈ map :=
  AList.mem_keys.symm

theorem length_keys (map : HashMap β) : map.keys.length = map.entries.length := by
  simp [AList.keys, List.keys]

theorem entries_ne_nil {map : HashMap β} : map.entries ≠ [] ↔ ∃ id, id ∈ map := by
  rw [← length_pos_iff, ← length_keys, length_pos_iff_exists_mem]
  simp only [mem_keys]

@[simp] theorem neighbours_insert (graph : HashMap (List UInt64)) (n : UInt64) (l : List UInt64)
    (id : UInt64) :
    neighbours (graph.insert n l) id = if id = n then l else neighbours graph id := by
  unfold neighbours
  by_cases h : id = n
  · rw [if_pos h, h, AList.lookup_insert, Option.getD_some]
  · rw [if_neg h, AList.lookup_insert_ne h]

theorem neighbours_erase (graph : HashMap (List UInt64)) (n id : UInt64) :
    neighbours (graph.erase n) id = if id = n then [] else neighbours graph id := by
  unfold neighbours
  by_cases h : id = n
  · rw [if_pos h, h, AList.lookup_erase, Option.getD_none]
  · rw [if_neg h, AList.lookup_erase_ne h]

theorem neighbours_retain (p : UInt64 → Bool) (graph : HashMap (List UInt64)) (id : UInt64) :
    neighbours (mapValues (List.filter p) graph) id = (neighbours graph id).filter p := by
  unfold neighbours
  rw [lookup_mapValues]
  cases graph.lookup id with
  | none => rfl
  | some l => rfl

variable {graph : HashMap (List UInt64)}

theorem neighbours_of_notMem {id : UInt64} (h : id ∉ graph) : neighbours graph id = [] := by
  unfold neighbours
  rw [AList.lookup_eq_none.mpr h, Option.getD_none]

/-- Ids paired with what is computed of their vectors; the ids without one are left out. -/
theorem map_fst_lookups {γ : Type} (map : HashMap β) (f : β → γ) (l : List UInt64) :
    ((l.filterMap fun id => (map.lookup id).map fun v => (id, f v)).map Prod.fst).Sublist l := by
  induction l with
  | nil => exact List.Sublist.slnil
  | cons id l ih =>
    cases hv : map.lookup id with
    | none => simpa [hv] using ih.cons id
    | some v => simpa [hv] using ih

/-! ## Well-formed states -/

structure Linked (m : Nat) (vectors : HashMap (List F)) (graph : HashMap (List UInt64)) :
    Prop where
  keys : ∀ id, id ∈ graph ↔ id ∈ vectors
  nodup : ∀ id, (neighbours graph id).Nodup
  stored : ∀ id, ∀ n ∈ neighbours graph id, n ∈ vectors
  degree : ∀ id, (neighbours graph id).length ≤ 2 * m

structure WellFormed (m : Nat) (st : HnswState F) : Prop extends
    Linked m st.vectors st.graph where
  entry_stored : ∀ id, st.entry = some id → id ∈ st.vectors
  entry_isSome : st.entry.isSome = true ↔ st.vectors.entries ≠ []

theorem wellFormed_new (m efConstruction efSearch : Nat) :
    WellFormed (HnswIndex.new (F := F) m efConstruction efSearch).m
      (HnswIndex.new (F := F) m efConstruction efSearch).state := by
  have hnone : ∀ id : UInt64, neighbours ∅ id = [] :=
    fun id => neighbours_of_notMem (AList.notMem_empty id)
  refine ⟨⟨?_, ?_, ?_, ?_⟩, ?_, ?_⟩ <;> simp [HnswIndex.new, hnone]

theorem Linked.set {m : Nat} {vectors : HashMap (List F)} (h : Linked m vectors graph)
    {n : UInt64} {l : List UInt64} (hn : n ∈ vectors) (hl : l.Nodup)
    (hstored : ∀ x ∈ l, x ∈ vectors) (hlen : l.length ≤ 2 * m) :
    Linked m vectors (graph.insert n l) := by
  refine ⟨fun id => ?_, fun id => ?_, fun id => ?_, fun id => ?_⟩
  · rw [AList.mem_insert, h.keys id]
    exact ⟨fun hid => hid.elim (fun e => e ▸ hn) fun hid => hid, Or.inr⟩
  · rw [neighbours_insert]
    split
    · exact hl
    · exact h.nodup id
  · rw [neighbours_insert]
    split
    · exact hstored
    · exact h.stored id
  · rw [neighbours_insert]
    split
    · exact hlen
    · exact h.degree id

theorem Linked.store {m : Nat} {vectors : HashMap (List F)} (h : Linked m vectors graph)
    (id : UInt64) (v : List F) {l : List UInt64} (hl : l.Nodup) (hstored : ∀ x ∈ l, x ∈ vectors)
    (hlen : l.length ≤ 2 * m) : Linked m (vectors.insert id v) (graph.insert id l) := by
  refine ⟨fun n => ?_, fun n => ?_, fun n => ?_, fun n => ?_⟩
  · rw [AList.mem_insert, AList.mem_insert, h.keys n]
  · rw [neighbours_insert]
    split
    · exact hl
    · exact h.nodup n
  · rw [neighbours_insert]
    intro x hx
    rw [AList.mem_insert]
    split at hx
    · exact Or.inr (hstored x hx)
    · exact Or.inr (h.stored n x hx)
  · rw [neighbours_insert]
    split
    · exact hlen
    · exact h.degree n

theorem WellFormed.remove {m : Nat} {st : HnswState F} (h : WellFormed m st) (id : UInt64)
    (iter : IterOrder) : WellFormed m (st.remove id iter) := by
  have hneigh : ∀ n, neighbours (st.remove id iter).graph n =
      if n = id then [] else (neighbours st.graph n).filter fun x => x ≠ id := by
    intro n
    simp only [HnswState.remove]
    rw [neighbours_retain, neighbours_erase]
    split <;> rfl
  have hmem : ∀ n, n ∈ (st.remove id iter).vectors ↔ n ≠ id ∧ n ∈ st.vectors :=
    fun n => AList.mem_erase
  have hhead : ∀ n, (iter.order (st.vectors.erase id).keys).head? = some n →
      n ∈ st.vectors.erase id := by
    intro n hn
    exact mem_keys.mp ((iter.perm _).mem_iff.mp (mem_of_mem_head? hn))
  refine ⟨⟨fun n => ?_, fun n => ?_, fun n => ?_, fun n => ?_⟩, fun n hn => ?_, ?_⟩
  · rw [hmem]
    simp only [HnswState.remove, mem_mapValues, AList.mem_erase, h.keys]
  · rw [hneigh]
    split
    · exact nodup_nil
    · exact (h.nodup n).filter _
  · rw [hneigh]
    intro x hx
    split at hx
    · exact absurd hx not_mem_nil
    · obtain ⟨hx, hne⟩ := mem_filter.mp hx
      exact (hmem x).mpr ⟨by simpa using hne, h.stored n x hx⟩
  · rw [hneigh]
    split
    · exact Nat.zero_le _
    · exact (length_filter_le _ _).trans (h.degree n)
  · simp only [HnswState.remove] at hn ⊢
    split at hn
    · exact hhead n hn
    · rename_i hne
      refine AList.mem_erase.mpr ⟨?_, h.entry_stored n hn⟩
      rintro rfl
      exact hne hn
  · simp only [HnswState.remove]
    split
    · rw [isSome_head?, Ne, Ne, ← length_eq_zero_iff, (iter.perm _).length_eq, length_keys, length_eq_zero_iff]
    · rename_i hne
      rw [h.entry_isSome, entries_ne_nil, entries_ne_nil]
      constructor
      · rintro ⟨n, hn⟩
        obtain ⟨e, he⟩ :=
          Option.isSome_iff_exists.mp (h.entry_isSome.mpr (entries_ne_nil.mpr ⟨n, hn⟩))
        refine ⟨e, AList.mem_erase.mpr ⟨?_, h.entry_stored e he⟩⟩
        rintro rfl
        exact hne he
      · rintro ⟨n, hn⟩
        exact ⟨n, (AList.mem_erase.mp hn).2⟩

/-! ## The search of one layer -/

section Layer

variable [LinearOrder F] [Zero F] (cosine : Cosine F) {st : HnswState F} (query : List F) (ef : Nat)
  (filter : Option (List UInt64)) {entry : UInt64}

omit [LinearOrder F] [Zero F] in
theorem layer_score {id : UInt64} :
    (layer cosine st query ef filter).score id ≠ none ↔ id ∈ st.vectors := by
  rw [← AList.lookup_isSome]
  cases h : st.vectors.lookup id <;> simp [layer, h]

omit [LinearOrder F] [Zero F] in
theorem layer_keys :
    ∀ id, (layer cosine st query ef filter).score id ≠ none → id ∈ st.vectors.keys :=
  fun _ h => mem_keys.mpr ((layer_score cosine query ef filter).mp h)

theorem walkLayer_eq (hentry : entry ∈ st.vectors) :
    ∃ sc, (layer cosine st query ef filter).score entry = some sc ∧
      walkLayer cosine st query entry ef filter =
        run (layer cosine st query ef filter) (st.vectors.keys.length + 1)
          (start (layer cosine st query ef filter) entry sc) := by
  obtain ⟨sc, hsc⟩ := Option.ne_none_iff_exists'.mp
    ((layer_score cosine query ef filter).mpr hentry)
  refine ⟨sc, hsc, ?_⟩
  simp only [walkLayer, HnswState.len, length_keys, hsc, Option.getD_some]

theorem walkLayer_tidy (hentry : entry ∈ st.vectors) (hef : 0 < ef) :
    Tidy (layer cosine st query ef filter) (walkLayer cosine st query entry ef filter).2 := by
  obtain ⟨sc, hsc, e⟩ := walkLayer_eq cosine query ef filter hentry
  rw [e]
  exact (tidy_start hsc hef).run _

/-- What a search returns: distinct stored ids that pass the filter, each with its score, best
first. -/
structure Hits (vectors : HashMap (List F)) (query : List F) (k : Nat)
    (filter : Option (List UInt64)) (hits : List (UInt64 × F)) : Prop where
  length_le : hits.length ≤ k
  nodup : (hits.map Prod.fst).Nodup
  scored : ∀ p ∈ hits, ∃ v, vectors.lookup p.1 = some v ∧ p.2 = cosine.cosineSimilarity query v
  admitted : ∀ p ∈ hits, admits filter p.1 = true
  best_first : hits.Pairwise fun a b => b.2 ≤ a.2

omit [Zero F] in
theorem Hits.take {vectors : HashMap (List F)} {k : Nat} {hits : List (UInt64 × F)}
    (h : Hits cosine vectors query ef filter hits) :
    Hits cosine vectors query k filter (hits.take k) where
  length_le := by
    rw [length_take]
    exact min_le_left _ _
  nodup := by
    rw [map_take]
    exact h.nodup.sublist (take_sublist _ _)
  scored := fun p hp => h.scored p (mem_of_mem_take hp)
  admitted := fun p hp => h.admitted p (mem_of_mem_take hp)
  best_first := h.best_first.sublist (take_sublist _ _)

theorem searchLayer_hits (hentry : entry ∈ st.vectors) (hef : 0 < ef) :
    Hits cosine st.vectors query ef filter (searchLayer cosine st query entry ef filter) := by
  have htidy := walkLayer_tidy cosine query ef filter hentry hef
  constructor
  · rw [searchLayer, length_descending]
    exact htidy.kept_length
  · exact nodup_descending.mpr htidy.kept_nodup
  · intro p hp
    obtain ⟨v, hv, e⟩ := Option.map_eq_some_iff.mp (htidy.kept_seen p (mem_descending.mp hp)).2
    exact ⟨v, hv, e.symm⟩
  · exact fun p hp => htidy.kept_admitted p (mem_descending.mp hp)
  · exact descending_pairwise _

def scanned (vectors : HashMap (List F)) (iter : IterOrder) : List (UInt64 × F) :=
  (((iter.order vectors.keys).filter (admits filter)).filterMap fun id =>
    (vectors.lookup id).map fun v => (id, cosine.cosineSimilarity query v)).filter fun p => 0 < p.2

variable (vectors : HashMap (List F))

theorem scan_eq (k : Nat) (iter : IterOrder) :
    scan cosine vectors query k filter iter =
      (descending (scanned cosine query filter vectors iter)).take k := rfl

theorem mem_scanned {vectors : HashMap (List F)} {iter : IterOrder} {p : UInt64 × F} :
    p ∈ scanned cosine query filter vectors iter ↔
      (∃ v, vectors.lookup p.1 = some v ∧ p.2 = cosine.cosineSimilarity query v) ∧
        admits filter p.1 = true ∧ 0 < p.2 := by
  unfold scanned
  rw [mem_filter, mem_filterMap]
  simp only [mem_filter, (iter.perm _).mem_iff, mem_keys, Option.map_eq_some_iff,
    decide_eq_true_eq]
  constructor
  · rintro ⟨⟨id, ⟨-, hadm⟩, v, hv, rfl⟩, hpos⟩
    exact ⟨⟨v, hv, rfl⟩, hadm, hpos⟩
  · rintro ⟨⟨v, hv, e⟩, hadm, hpos⟩
    refine ⟨⟨p.1, ⟨?_, hadm⟩, v, hv, Prod.ext rfl e.symm⟩, hpos⟩
    rw [← AList.lookup_isSome, hv, Option.isSome_some]

theorem map_fst_scanned (iter : IterOrder) :
    ((scanned cosine query filter vectors iter).map Prod.fst).Sublist
      (iter.order vectors.keys) :=
  ((filter_sublist.map Prod.fst).trans (map_fst_lookups vectors _ _)).trans
    filter_sublist

theorem nodup_scanned (iter : IterOrder) :
    ((scanned cosine query filter vectors iter).map Prod.fst).Nodup :=
  ((iter.perm _).nodup_iff.mpr vectors.keys_nodup).sublist
    (map_fst_scanned cosine query filter vectors iter)

theorem length_scanned_le (iter : IterOrder) :
    (scanned cosine query filter vectors iter).length ≤ vectors.entries.length := by
  have hle := (map_fst_scanned cosine query filter vectors iter).length_le
  rwa [length_map, (iter.perm _).length_eq, length_keys] at hle

theorem mem_scan {vectors : HashMap (List F)} {k : Nat} (hk : vectors.entries.length ≤ k)
    {iter : IterOrder} {p : UInt64 × F} :
    p ∈ scan cosine vectors query k filter iter ↔
      (∃ v, vectors.lookup p.1 = some v ∧ p.2 = cosine.cosineSimilarity query v) ∧
        admits filter p.1 = true ∧ 0 < p.2 := by
  rw [scan_eq, take_of_length_le, mem_descending, mem_scanned]
  rw [length_descending]
  exact (length_scanned_le cosine query filter vectors iter).trans hk

theorem scan_hits (k : Nat) (iter : IterOrder) :
    Hits cosine vectors query k filter (scan cosine vectors query k filter iter) := by
  rw [scan_eq]
  refine Hits.take cosine query (descending (scanned cosine query filter vectors iter)).length
    filter ⟨le_rfl, ?_, ?_, ?_, descending_pairwise _⟩
  · exact nodup_descending.mpr (nodup_scanned cosine query filter vectors iter)
  · exact fun p hp => ((mem_scanned cosine query filter).mp (mem_descending.mp hp)).1
  · exact fun p hp => ((mem_scanned cosine query filter).mp (mem_descending.mp hp)).2.1

end Layer

/-! ## One operation -/

section Store

variable [LinearOrder F] [Zero F] (cosine : Cosine F) (m : Nat)

def linked (graph : HashMap (List UInt64)) (id n : UInt64) : List UInt64 :=
  if id ∈ neighbours graph n then neighbours graph n else neighbours graph n ++ [id]

theorem mem_linked {id n x : UInt64} : x ∈ linked graph id n ↔ x = id ∨ x ∈ neighbours graph n := by
  unfold linked
  split
  · rename_i hid
    constructor
    · exact Or.inr
    · rintro (rfl | hx)
      · exact hid
      · exact hx
  · rw [mem_append, mem_singleton, or_comm]

theorem nodup_linked {n : UInt64} (id : UInt64) (h : (neighbours graph n).Nodup) :
    (linked graph id n).Nodup := by
  unfold linked
  split
  · exact h
  · rename_i hid
    rw [nodup_append]
    refine ⟨h, nodup_singleton id, fun a ha b hb e => hid ?_⟩
    rwa [← mem_singleton.mp hb, ← e]

omit [Zero F] in
theorem linkBack_eq (vectors : HashMap (List F)) (id : UInt64) (graph : HashMap (List UInt64))
    (n : UInt64) :
    ∃ l, linkBack cosine m vectors id graph n = graph.insert n l ∧
      ((neighbours graph n).Nodup → l.Nodup) ∧ (∀ x ∈ l, x ∈ linked graph id n) ∧
      l.length ≤ 2 * m ∧ ((linked graph id n).length ≤ 2 * m → l = linked graph id n) := by
  by_cases hlong : m * 2 < (linked graph id n).length
  · refine ⟨_, if_pos hlong, fun h => ?_, fun x hx => ?_, ?_, fun hshort => by omega⟩
    · have hsub := map_fst_lookups vectors
        (cosine.cosineSimilarity ((vectors.lookup n).getD [])) (linked graph id n)
      have hnodup := nodup_descending.mpr ((nodup_linked id h).sublist hsub)
      rw [map_take]
      exact hnodup.sublist (take_sublist _ _)
    · have hsub := map_fst_lookups vectors
        (cosine.cosineSimilarity ((vectors.lookup n).getD [])) (linked graph id n)
      obtain ⟨p, hp, rfl⟩ := mem_map.mp hx
      exact hsub.subset (mem_map_of_mem (mem_descending.mp (mem_of_mem_take hp)))
    · rw [length_map, length_take]
      omega
  · exact ⟨linked graph id n, if_neg hlong, nodup_linked id, fun _ hx => hx, by omega,
      fun _ => rfl⟩

omit [Zero F] in
theorem Linked.linkBack {vectors : HashMap (List F)} {graph : HashMap (List UInt64)}
    (h : Linked m vectors graph) {id n : UInt64} (hid : id ∈ vectors) (hn : n ∈ vectors) :
    Linked m vectors (VectorIndex.linkBack cosine m vectors id graph n) := by
  obtain ⟨l, e, hnodup, hmem, hlen, -⟩ := linkBack_eq cosine m vectors id graph n
  rw [e]
  refine h.set hn (hnodup (h.nodup n)) (fun x hx => ?_) hlen
  rcases mem_linked.mp (hmem x hx) with rfl | hx
  · exact hid
  · exact h.stored n x hx

omit [Zero F] in
theorem Linked.linkBacks {vectors : HashMap (List F)} {graph : HashMap (List UInt64)}
    (h : Linked m vectors graph) {id : UInt64} (hid : id ∈ vectors) {l : List UInt64}
    (hl : ∀ n ∈ l, n ∈ vectors) :
    Linked m vectors (l.foldl (VectorIndex.linkBack cosine m vectors id) graph) := by
  induction l generalizing graph with
  | nil => exact h
  | cons n l ih =>
    exact ih (h.linkBack cosine m hid (hl n mem_cons_self))
      fun x hx => hl x (mem_cons_of_mem _ hx)

omit [Zero F] in
theorem selectNeighbors_spec {vectors : HashMap (List F)} {query : List F} {ef : Nat}
    {found : List (UInt64 × F)} (h : Hits cosine vectors query ef none found) :
    (selectNeighbors found m).Nodup ∧ (∀ n ∈ selectNeighbors found m, n ∈ vectors) ∧
      (selectNeighbors found m).length ≤ m := by
  unfold selectNeighbors
  refine ⟨?_, fun n hn => ?_, ?_⟩
  · rw [map_take]
    exact (nodup_descending.mpr h.nodup).sublist (take_sublist _ _)
  · obtain ⟨p, hp, rfl⟩ := mem_map.mp hn
    obtain ⟨v, hv, -⟩ := h.scored p (mem_descending.mp (mem_of_mem_take hp))
    rw [← AList.lookup_isSome, hv, Option.isSome_some]
  · rw [length_map, length_take]
    exact min_le_left _ _

theorem WellFormed.store {m : Nat} {st : HnswState F} (h : WellFormed m st) {efConstruction : Nat}
    (hef : 0 < efConstruction) (id : UInt64) (normed : List F) :
    WellFormed m (st.store cosine m efConstruction id normed) := by
  have hid : id ∈ st.vectors.insert id normed := (AList.mem_insert _).mpr (Or.inl rfl)
  unfold HnswState.store
  by_cases hempty : st.vectors.entries = []
  · rw [if_pos hempty]
    refine ⟨h.toLinked.store id normed nodup_nil (by simp) (by simp), ?_, ?_⟩
    · intro n hn
      cases hn
      exact hid
    · simp
  rw [if_neg hempty]
  obtain ⟨entry, hentry⟩ := Option.isSome_iff_exists.mp (h.entry_isSome.mpr hempty)
  have hhits := searchLayer_hits cosine normed efConstruction none (h.entry_stored entry hentry) hef
  obtain ⟨hnodup, hstored, hlen⟩ := selectNeighbors_spec cosine m hhits
  simp only [hentry, Option.getD_some, reduceCtorEq, if_false]
  have hlinked := h.toLinked.store id normed hnodup hstored (by omega)
  refine ⟨hlinked.linkBacks cosine m hid fun n hn => ?_, ?_, ?_⟩
  · exact (AList.mem_insert _).mpr (Or.inr (hstored n hn))
  · rintro n hn
    cases hn
    exact (AList.mem_insert _).mpr (Or.inr (h.entry_stored entry hentry))
  · simp

end Store

/-! ## Runs -/

section Runs

variable [LinearOrder F] [Zero F] (cosine : Cosine F)

structure Settled (index : HnswIndex F) : Prop where
  m_pos : 0 < index.m
  wellFormed : WellFormed index.m index.state
  construction_pos : 0 < index.efConstruction
  search_pos : 0 < index.efSearch

omit [LinearOrder F] [Zero F] in
theorem settled_new (m efConstruction efSearch : Nat) :
    Settled (HnswIndex.new (F := F) m efConstruction efSearch) where
  m_pos := by simp [HnswIndex.new]
  wellFormed := wellFormed_new m efConstruction efSearch
  construction_pos := by simp [HnswIndex.new]
  search_pos := by simp [HnswIndex.new]

theorem Settled.apply {index : HnswIndex F} (h : Settled index) (op : Op F) :
    Settled (index.apply cosine op) := by
  cases op with
  | upsert id vector =>
    by_cases hv : vector = []
    · simpa [HnswIndex.apply, HnswIndex.upsert, hv, Except.toOption] using h
    · simp only [HnswIndex.apply, HnswIndex.upsert, if_neg hv, Except.toOption, Option.getD_some]
      exact { h with wellFormed := h.wellFormed.store cosine h.construction_pos id _ }
  | remove id iter => exact { h with wellFormed := h.wellFormed.remove id iter }

theorem Settled.applyAll {index : HnswIndex F} (h : Settled index) (ops : List (Op F)) :
    Settled (index.applyAll cosine ops) := by
  induction ops generalizing index with
  | nil => exact h
  | cons op ops ih => exact ih (h.apply cosine op)

end Runs

end ContextDesk.VectorIndex
