import ContextDesk.Lib.BestFirst
import Mathlib.Data.List.AList

/-!
# Vector indexes

`ExactIndex` compares a query with every stored vector; `HnswIndex` walks a graph of near
neighbours from one entry. Vectors are lists of numbers in a linear order; how they are normalised
and compared is left open (`Cosine`), so nothing here depends on what the scores are. A map is
listed in an order that the map does not fix (`IterOrder`): `remove` takes whatever key comes first
as the new entry, and a full scan meets equal scores in that order. The locks are left out: no
call fails while it holds one.
-/

namespace ContextDesk.VectorIndex

open Lib (BestFirst.Space BestFirst.Walk)
open Lib.BestFirst (descending run start)

abbrev HashMap (β : Type) := AList fun _ : UInt64 => β

structure IterOrder where
  order : List UInt64 → List UInt64
  perm : ∀ l, (order l).Perm l

/-- `values_mut`, each value replaced. -/
def mapValues {β γ : Type} (f : β → γ) (map : HashMap β) : HashMap γ where
  entries := map.entries.map fun e => ⟨e.1, f e.2⟩
  nodupKeys := by
    have hkeys : (map.entries.map fun e => (⟨e.1, f e.2⟩ : Σ _ : UInt64, γ)).keys =
        map.entries.keys := by
      simp [List.keys, Function.comp_def]
    unfold List.NodupKeys
    rw [hkeys]
    exact map.nodupKeys

@[simp] theorem lookup_mapValues {β γ : Type} (f : β → γ) (map : HashMap β) (id : UInt64) :
    (mapValues f map).lookup id = (map.lookup id).map f :=
  @List.dlookup_map₂ UInt64 _ (fun _ => β) (fun _ => γ) map.entries (fun _ => f) id

@[simp] theorem mem_mapValues {β γ : Type} (f : β → γ) (map : HashMap β) (id : UInt64) :
    id ∈ mapValues f map ↔ id ∈ map := by
  rw [← AList.lookup_isSome, ← AList.lookup_isSome, lookup_mapValues, Option.isSome_map]

structure Cosine (F : Type) where
  l2Normalize : List F → List F
  cosineSimilarity : List F → List F → F

variable {F : Type} [LinearOrder F] [Zero F]

def admits (filter : Option (List UInt64)) (id : UInt64) : Bool :=
  match filter with
  | none => true
  | some ids => id ∈ ids

/-- Every stored vector compared with the query: the best `k` of those above zero. -/
def scan (cosine : Cosine F) (vectors : HashMap (List F)) (q : List F) (k : Nat)
    (filter : Option (List UInt64)) (iter : IterOrder) : List (UInt64 × F) :=
  let stored := (iter.order vectors.keys).filter (admits filter)
  let scored := stored.filterMap fun id =>
    (vectors.lookup id).map fun v => (id, cosine.cosineSimilarity q v)
  (descending (scored.filter fun p => 0 < p.2)).take k

/-! ## The exact index -/

structure ExactIndex (F : Type) where
  inner : HashMap (List F)

namespace ExactIndex

def new : ExactIndex F := ⟨∅⟩

def upsert (cosine : Cosine F) (index : ExactIndex F) (id : UInt64) (vector : List F) :
    Except String (ExactIndex F) :=
  if vector = [] then .error "empty vector"
  else .ok ⟨index.inner.insert id (cosine.l2Normalize vector)⟩

def search (cosine : Cosine F) (index : ExactIndex F) (query : List F) (k : Nat)
    (filter : Option (List UInt64)) (iter : IterOrder) : List (UInt64 × F) :=
  if k = 0 ∨ query = [] then []
  else scan cosine index.inner (cosine.l2Normalize query) k filter iter

def remove (index : ExactIndex F) (id : UInt64) : ExactIndex F := ⟨index.inner.erase id⟩

end ExactIndex

/-! ## The navigable graph -/

structure HnswState (F : Type) where
  vectors : HashMap (List F)
  /-- Adjacency: id → neighbor ids. -/
  graph : HashMap (List UInt64)
  /-- Entry point for search (arbitrary stored id). -/
  entry : Option UInt64

structure HnswIndex (F : Type) where
  /-- Max edges per node. -/
  m : Nat
  efConstruction : Nat
  efSearch : Nat
  state : HnswState F

def neighbours (graph : HashMap (List UInt64)) (id : UInt64) : List UInt64 :=
  (graph.lookup id).getD []

def HnswState.len (st : HnswState F) : Nat := st.vectors.entries.length

def selectNeighbors (candidates : List (UInt64 × F)) (m : Nat) : List UInt64 :=
  ((descending candidates).take m).map Prod.fst

/-- What `searchLayer` walks. -/
def layer (cosine : Cosine F) (st : HnswState F) (query : List F) (ef : Nat)
    (filter : Option (List UInt64)) : BestFirst.Space UInt64 F where
  next := neighbours st.graph
  score id := (st.vectors.lookup id).map (cosine.cosineSimilarity query)
  admits := admits filter
  width := ef

/-- The ids expanded by a search of the graph, and the walk at its end. -/
def walkLayer (cosine : Cosine F) (st : HnswState F) (query : List F) (entry : UInt64) (ef : Nat)
    (filter : Option (List UInt64)) : List UInt64 × BestFirst.Walk UInt64 F :=
  let space := layer cosine st query ef filter
  run space (st.len + 1) (start space entry ((space.score entry).getD 0))

def searchLayer (cosine : Cosine F) (st : HnswState F) (query : List F) (entry : UInt64) (ef : Nat)
    (filter : Option (List UInt64)) : List (UInt64 × F) :=
  descending (walkLayer cosine st query entry ef filter).2.kept

/-- The edge back from a selected neighbour, and its list cut when it got too long. -/
def linkBack (cosine : Cosine F) (m : Nat) (vectors : HashMap (List F)) (id : UInt64)
    (graph : HashMap (List UInt64)) (n : UInt64) : HashMap (List UInt64) :=
  let e := neighbours graph n
  let e := if id ∈ e then e else e ++ [id]
  if m * 2 < e.length then
    let nv := (vectors.lookup n).getD []
    let scored := e.filterMap fun oid =>
      (vectors.lookup oid).map fun v => (oid, cosine.cosineSimilarity nv v)
    graph.insert n (((descending scored).take m).map Prod.fst)
  else graph.insert n e

/-- The state after a vector that is not empty was stored. -/
def HnswState.store (cosine : Cosine F) (m efConstruction : Nat) (st : HnswState F) (id : UInt64)
    (normed : List F) : HnswState F :=
  if st.vectors.entries = [] then
    { vectors := st.vectors.insert id normed, graph := st.graph.insert id [], entry := some id }
  else
    let entry := st.entry.getD id
    let found := searchLayer cosine st normed entry efConstruction none
    let selected := selectNeighbors found m
    let vectors := st.vectors.insert id normed
    let graph := selected.foldl (linkBack cosine m vectors id) (st.graph.insert id selected)
    { vectors, graph, entry := if st.entry = none then some id else st.entry }

def HnswState.remove (st : HnswState F) (id : UInt64) (iter : IterOrder) : HnswState F :=
  let vectors := st.vectors.erase id
  { vectors
    graph := mapValues (List.filter fun x => x ≠ id) (st.graph.erase id)
    entry := if st.entry = some id then (iter.order vectors.keys).head? else st.entry }

namespace HnswIndex

def new (m efConstruction efSearch : Nat) : HnswIndex F where
  m := max m 4
  efConstruction := max efConstruction 16
  efSearch := max efSearch 16
  state := { vectors := ∅, graph := ∅, entry := none }

def upsert (cosine : Cosine F) (index : HnswIndex F) (id : UInt64) (vector : List F) :
    Except String (HnswIndex F) :=
  if vector = [] then .error "empty vector"
  else
    let state := index.state.store cosine index.m index.efConstruction id (cosine.l2Normalize vector)
    .ok { index with state }

def search (cosine : Cosine F) (index : HnswIndex F) (query : List F) (k : Nat)
    (filter : Option (List UInt64)) (iter : IterOrder) : List (UInt64 × F) :=
  if k = 0 ∨ query = [] then []
  else
    match index.state.entry with
    | none => []
    | some entry =>
      let q := cosine.l2Normalize query
      let w := searchLayer cosine index.state q entry (max index.efSearch k) filter
      -- the filter kept the walk from everything: fall back to the full scan
      if w = [] ∧ filter ≠ none then scan cosine index.state.vectors q k filter iter
      else w.take k

def remove (index : HnswIndex F) (id : UInt64) (iter : IterOrder) : HnswIndex F :=
  { index with state := index.state.remove id iter }

end HnswIndex

/-! ## Runs -/

inductive Op (F : Type) where
  | upsert (id : UInt64) (vector : List F)
  | remove (id : UInt64) (iter : IterOrder)

/-- An index after an operation; a refused one changes nothing. -/
def HnswIndex.apply (cosine : Cosine F) (index : HnswIndex F) : Op F → HnswIndex F
  | .upsert id vector => (index.upsert cosine id vector).toOption.getD index
  | .remove id iter => index.remove id iter

def HnswIndex.applyAll (cosine : Cosine F) (index : HnswIndex F) (ops : List (Op F)) :
    HnswIndex F :=
  ops.foldl (HnswIndex.apply cosine) index

def ExactIndex.apply (cosine : Cosine F) (index : ExactIndex F) : Op F → ExactIndex F
  | .upsert id vector => (index.upsert cosine id vector).toOption.getD index
  | .remove id _ => index.remove id

def ExactIndex.applyAll (cosine : Cosine F) (index : ExactIndex F) (ops : List (Op F)) :
    ExactIndex F :=
  ops.foldl (ExactIndex.apply cosine) index

end ContextDesk.VectorIndex
