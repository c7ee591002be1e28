import ContextDesk.MemoryChains
import ContextDesk.MemoryList

/-!
# Recall

`recall` collects the records that the text of a query finds, filters them by status, kind and
scope, and then, for a query that includes superseded records, replaces each by its supersession
chain. The chain is not filtered again: a retracted successor, a predecessor of another kind or a
record of another scope is returned with the rest. Without the flag every hit passes the filters;
with it they do exactly when the chains hold nothing that the filters refuse (`recall_exact`).

Open are the full-text search of the database, the scores (floating point) and the order of a
`SELECT` that names none. Of a hit its record and its scores are modelled.
-/

namespace ContextDesk.Memory

open Lib Lib.Text Lib.ByteIndex List

structure RecallQuery (S : Type) where
  query : Text
  kinds : Option (List Kind) := none
  k : Nat := 10
  includeSuperseded : Bool := false
  scope : Option Scope := none
  minScore : Option S := none

structure RecallHit (S : Type) where
  record : MemoryRecord
  score : S
  keywordScore : S

structure RecallSearch (S : Type) where
  isAlphanumeric : Char → Bool
  /-- The entries that a `MATCH` finds, best first, each with its keyword score. -/
  ftsMatch : Text → List FtsEntry → List (FtsEntry × S)
  /-- The keyword scores of a record found by `LIKE`, active or superseded. -/
  likeScore : S
  supersededScore : S
  maxScore : List S → S
  /-- Of a keyword score, the greatest of them and the record's age, pin and confidence. -/
  hybridScore : MemoryRecord → S → S → Int → S
  ge : S → S → Bool
  gt : S → S → Bool

/-- A `MATCH` finds each entry at most once. -/
def RecallSearch.Lawful {S : Type} (search : RecallSearch S) : Prop :=
  ∀ q entries, ((search.ftsMatch q entries).map Prod.fst).Subperm entries

/-- `LIKE` of the database: `%` for any text, `_` for any character, ASCII letters of both cases. -/
def sqlLike : Text → Text → Bool
  | [], text => text.isEmpty
  | c :: pattern, text =>
    if c = '%' then text.tails.any fun rest => sqlLike pattern rest
    else
      match text with
      | [] => false
      | d :: text => (c = '_' || c.toLower = d.toLower) && sqlLike pattern text

variable {S : Type}

/-- The tokens of a text of at least two bytes, quoted, any of which may match. -/
def ftsMatchQuery (isAlphanumeric : Char → Bool) (q : Text) : Text :=
  let tokens := (q.splitOnP fun c => !isAlphanumeric c && c ≠ '_' && c ≠ '-').filter
    fun t => 2 ≤ byteLen t
  let quoted := tokens.map fun t => '"' :: t.filter (· ≠ '"') ++ ['"']
  " OR ".toList.intercalate quoted

/-! ## Candidates -/

def ftsCandidates (search : RecallSearch S) (db : MemoryDb) (query : Text) :
    List (MemoryRecord × S) :=
  let ftsQ := ftsMatchQuery search.isAlphanumeric query
  if ftsQ = [] then []
  else ((search.ftsMatch ftsQ db.fts).take 50).filterMap fun hit =>
    (recordOf db hit.1.memoryId).map fun rec => (rec, hit.2)

/-- `SELECT id FROM memory WHERE status = .. AND (content LIKE .. OR title LIKE ..) LIMIT 50`. -/
def likeIds (db : MemoryDb) (scan : List Uuid) (status : Status) (query : Text) : List Uuid :=
  let like := '%' :: trim query ++ ['%']
  (scan.filter fun id => (db.memory.lookup id).any fun row =>
    row.status = status && (sqlLike like row.content || sqlLike like row.title)).take 50

/-- The records of some ids, less those that were seen. -/
def addUnseen (db : MemoryDb) (kw : S) : List Uuid → List Uuid → List (MemoryRecord × S)
  | _, [] => []
  | seen, id :: ids =>
    if id ∈ seen then addUnseen db kw seen ids
    else
      match recordOf db id with
      | none => addUnseen db kw (id :: seen) ids
      | some rec => (rec, kw) :: addUnseen db kw (id :: seen) ids

def textCandidates (search : RecallSearch S) (db : MemoryDb) (scan : List Uuid)
    (q : RecallQuery S) : List (MemoryRecord × S) :=
  let candidates := ftsCandidates search db q.query
  let candidates :=
    if candidates.isEmpty && !(trim q.query).isEmpty then
      (likeIds db scan .active q.query).filterMap fun id =>
        (recordOf db id).map fun rec => (rec, search.likeScore)
    else candidates
  if q.includeSuperseded && !(trim q.query).isEmpty then
    candidates ++ addUnseen db search.supersededScore (candidates.map (·.1.id))
      (likeIds db scan .superseded q.query)
  else candidates

def statusRecalled (q : RecallQuery S) (nowSecs : Int) (rec : MemoryRecord) : Bool :=
  if rec.row.status = .active then isValidNow rec.row.validFrom rec.row.validTo nowSecs
  else q.includeSuperseded && rec.row.status = .superseded

def ofScope (scope : Option Scope) (rec : MemoryRecord) : Bool :=
  scope.all fun s => decide (rec.row.scope = s)

/-- What the text finds and the filters let through. -/
def recallCandidates (search : RecallSearch S) (db : MemoryDb) (scan : List Uuid)
    (q : RecallQuery S) (nowSecs : Int) : List (MemoryRecord × S) :=
  let candidates := (textCandidates search db scan q).filter fun c => statusRecalled q nowSecs c.1
  let candidates := candidates.filter fun c => ofKinds q.kinds c.1
  candidates.filter fun c => ofScope q.scope c.1

def rankHits (search : RecallSearch S) (q : RecallQuery S) (nowSecs : Int)
    (candidates : List (MemoryRecord × S)) : List (RecallHit S) :=
  let kwMax := search.maxScore (candidates.map (·.2))
  let hits := candidates.map fun c =>
    (⟨c.1, search.hybridScore c.1 c.2 kwMax nowSecs, c.2⟩ : RecallHit S)
  let hits := hits.mergeSort fun a b => !search.gt b.score a.score
  let hits := match q.minScore with
    | none => hits
    | some min => hits.filter fun h => search.ge h.score min
  hits.take (max q.k 1)

def storeRecall (search : RecallSearch S) (db : MemoryDb) (scan : List Uuid) (fuel : Nat)
    (q : RecallQuery S) (nowSecs : Int) : Option (List (RecallHit S)) := do
  let candidates := recallCandidates search db scan q nowSecs
  let candidates ← if q.includeSuperseded then expandChains db fuel [] candidates
    else some candidates
  some (rankHits search q nowSecs candidates)

/-! ## What a hit should be -/

structure Wanted (q : RecallQuery S) (nowSecs : Int) (rec : MemoryRecord) : Prop where
  kind : ∀ kinds, q.kinds = some kinds → rec.kind ∈ kinds
  scope : ∀ scope, q.scope = some scope → rec.row.scope = scope
  status : (rec.row.status = .active ∧
      isValidNow rec.row.validFrom rec.row.validTo nowSecs = true) ∨
    (q.includeSuperseded = true ∧ rec.row.status = .superseded)

structure Recalled (q : RecallQuery S) (nowSecs : Int) (hits : List (RecallHit S)) : Prop where
  wanted : ∀ h ∈ hits, Wanted q nowSecs h.record
  distinct : (hits.map (·.record.id)).Nodup
  bounded : hits.length ≤ max q.k 1

variable {q : RecallQuery S} {nowSecs : Int}

theorem wanted_iff {rec : MemoryRecord} :
    Wanted q nowSecs rec ↔ statusRecalled q nowSecs rec = true ∧ ofKinds q.kinds rec = true ∧
      ofScope q.scope rec = true := by
  have hstatus : statusRecalled q nowSecs rec = true ↔
      (rec.row.status = .active ∧
        isValidNow rec.row.validFrom rec.row.validTo nowSecs = true) ∨
      (q.includeSuperseded = true ∧ rec.row.status = .superseded) := by
    unfold statusRecalled
    by_cases hactive : rec.row.status = .active
    · simp [hactive]
    · simp [hactive]
  have hkinds : ofKinds q.kinds rec = true ↔ ∀ kinds, q.kinds = some kinds → rec.kind ∈ kinds := by
    unfold ofKinds
    cases q.kinds with
    | none => simp
    | some kinds => simp
  have hscope : ofScope q.scope rec = true ↔
      ∀ scope, q.scope = some scope → rec.row.scope = scope := by
    unfold ofScope
    cases q.scope with
    | none => simp
    | some scope => simp
  rw [hstatus, hkinds, hscope]
  exact ⟨fun h => ⟨h.status, h.kind, h.scope⟩, fun h => ⟨h.2.1, h.2.2, h.1⟩⟩

variable {search : RecallSearch S} {db : MemoryDb} {scan : List Uuid}

theorem mem_recallCandidates {c : MemoryRecord × S} :
    c ∈ recallCandidates search db scan q nowSecs ↔
      c ∈ textCandidates search db scan q ∧ Wanted q nowSecs c.1 := by
  unfold recallCandidates
  simp only [mem_filter, wanted_iff]
  tauto

theorem recallCandidates_sublist (search : RecallSearch S) (db : MemoryDb) (scan : List Uuid)
    (q : RecallQuery S) (nowSecs : Int) :
    (recallCandidates search db scan q nowSecs).Sublist (textCandidates search db scan q) := by
  unfold recallCandidates
  exact filter_sublist.trans (filter_sublist.trans filter_sublist)

/-! ## What the text finds -/

structure Collected (db : MemoryDb) (candidates : List (MemoryRecord × S)) : Prop where
  stored : ∀ c ∈ candidates, recordOf db c.1.id = some c.1
  distinct : (candidates.map (·.1.id)).Nodup

theorem Collected.sublist {l l' : List (MemoryRecord × S)} (h : Collected db l)
    (hsub : l'.Sublist l) : Collected db l' :=
  ⟨fun c hc => h.stored c (hsub.subset hc), h.distinct.sublist (hsub.map _)⟩

theorem Collected.nil (db : MemoryDb) : Collected db ([] : List (MemoryRecord × S)) :=
  ⟨fun _ hc => absurd hc not_mem_nil, nodup_nil⟩

theorem collected_filterMap {α : Type} (id : α → Uuid) (kw : α → S) {l : List α}
    (h : (l.map id).Nodup) :
    Collected db (l.filterMap fun a => (recordOf db (id a)).map fun rec => (rec, kw a)) ∧
      ∀ c ∈ l.filterMap (fun a => (recordOf db (id a)).map fun rec => (rec, kw a)),
        c.1.id ∈ l.map id := by
  induction l with
  | nil => exact ⟨Collected.nil db, fun c hc => absurd hc not_mem_nil⟩
  | cons a l ih =>
    rw [map_cons, nodup_cons] at h
    obtain ⟨hrest, hids⟩ := ih h.2
    cases hrec : recordOf db (id a) with
    | none =>
      rw [filterMap_cons_none (by rw [hrec]; rfl)]
      exact ⟨hrest, fun c hc => mem_cons_of_mem _ (hids c hc)⟩
    | some rec =>
      rw [filterMap_cons_some (by rw [hrec]; rfl)]
      have hid := recordOf_id hrec
      refine ⟨⟨forall_mem_cons.mpr ⟨hid ▸ hrec, hrest.stored⟩, ?_⟩,
        forall_mem_cons.mpr ⟨?_, fun c hc => mem_cons_of_mem _ (hids c hc)⟩⟩
      · rw [map_cons, nodup_cons, hid]
        refine ⟨fun hmem => ?_, hrest.distinct⟩
        obtain ⟨c, hc, hcid⟩ := mem_map.mp hmem
        exact h.1 (hcid ▸ hids c hc)
      · rw [hid]
        exact mem_cons_self

theorem addUnseen_collected {db : MemoryDb} {kw : S} {seen ids : List Uuid} :
    Collected db (addUnseen db kw seen ids) ∧
      ∀ c ∈ addUnseen db kw seen ids, c.1.id ∉ seen := by
  induction ids generalizing seen with
  | nil => exact ⟨Collected.nil db, fun c hc => absurd hc not_mem_nil⟩
  | cons id ids ih =>
    unfold addUnseen
    by_cases hseen : id ∈ seen
    · rw [if_pos hseen]
      exact ih
    · rw [if_neg hseen]
      obtain ⟨hrest, hids⟩ := @ih (id :: seen)
      have hfresh : ∀ c ∈ addUnseen db kw (id :: seen) ids, c.1.id ≠ id ∧ c.1.id ∉ seen := by
        intro c hc
        have hnot := hids c hc
        rw [mem_cons, not_or] at hnot
        exact hnot
      cases hrec : recordOf db id with
      | none => exact ⟨hrest, fun c hc => (hfresh c hc).2⟩
      | some rec =>
        have hid := recordOf_id hrec
        refine ⟨⟨forall_mem_cons.mpr ⟨hid ▸ hrec, hrest.stored⟩, ?_⟩,
          forall_mem_cons.mpr ⟨hid ▸ hseen, fun c hc => (hfresh c hc).2⟩⟩
        rw [map_cons, nodup_cons, hid]
        refine ⟨fun hmem => ?_, hrest.distinct⟩
        obtain ⟨c, hc, hcid⟩ := mem_map.mp hmem
        exact (hfresh c hc).1 hcid

theorem ftsCandidates_collected (hsearch : search.Lawful) (hfts : (db.fts.map (·.memoryId)).Nodup)
    (query : Text) : Collected db (ftsCandidates search db query) := by
  unfold ftsCandidates
  simp only
  split
  · exact Collected.nil db
  · refine (collected_filterMap (fun hit : FtsEntry × S => hit.1.memoryId) Prod.snd ?_).1
    obtain ⟨found, hperm, hsub⟩ := hsearch (ftsMatchQuery search.isAlphanumeric query) db.fts
    have hall : ((search.ftsMatch (ftsMatchQuery search.isAlphanumeric query) db.fts).map
        fun hit => hit.1.memoryId).Nodup := by
      have hids := (hperm.map (·.memoryId)).nodup_iff.mp (hfts.sublist (hsub.map _))
      rwa [map_map] at hids
    exact hall.sublist ((take_sublist _ _).map _)

theorem likeIds_nodup (hscan : scan.Nodup) (status : Status) (query : Text) :
    (likeIds db scan status query).Nodup :=
  hscan.sublist ((take_sublist _ _).trans filter_sublist)

theorem textCandidates_collected (hsearch : search.Lawful)
    (hfts : (db.fts.map (·.memoryId)).Nodup) (hscan : scan.Nodup) (q : RecallQuery S) :
    Collected db (textCandidates search db scan q) := by
  unfold textCandidates
  simp only
  generalize hfound : (if (ftsCandidates search db q.query).isEmpty && !(trim q.query).isEmpty then
      (likeIds db scan .active q.query).filterMap fun id =>
        (recordOf db id).map fun rec => (rec, search.likeScore)
    else ftsCandidates search db q.query) = found
  have hcollected : Collected db found := by
    rw [← hfound]
    split
    · refine (collected_filterMap id (fun _ => search.likeScore) ?_).1
      rw [map_id]
      exact likeIds_nodup hscan .active q.query
    · exact ftsCandidates_collected hsearch hfts q.query
  split
  · obtain ⟨hmore, hunseen⟩ := @addUnseen_collected S db search.supersededScore
      (found.map (·.1.id)) (likeIds db scan .superseded q.query)
    refine ⟨fun c hc => ?_, ?_⟩
    · rcases mem_append.mp hc with hc | hc
      · exact hcollected.stored c hc
      · exact hmore.stored c hc
    · rw [map_append, nodup_append]
      refine ⟨hcollected.distinct, hmore.distinct, ?_⟩
      rintro x hx y hy rfl
      obtain ⟨c, hc, rfl⟩ := mem_map.mp hy
      exact hunseen c hc hx
  · exact hcollected

/-! ## The hits -/

theorem rankHits_subperm (search : RecallSearch S) (q : RecallQuery S) (nowSecs : Int)
    (candidates : List (MemoryRecord × S)) :
    ((rankHits search q nowSecs candidates).map (·.record)).Subperm (candidates.map (·.1)) := by
  unfold rankHits
  simp only
  generalize hkeep : (candidates.map fun c => (⟨c.1, search.hybridScore c.1 c.2
    (search.maxScore (candidates.map (·.2))) nowSecs, c.2⟩ : RecallHit S)) = hits
  have hrecords : hits.map (·.record) = candidates.map (·.1) := by
    rw [← hkeep, map_map]
    rfl
  rw [← hrecords]
  have hsorted := (mergeSort_perm hits fun a b => !search.gt b.score a.score).map
    (·.record)
  refine List.Subperm.trans (List.Sublist.subperm ?_) hsorted.subperm
  refine ((take_sublist _ _).map _).trans ?_
  split
  · exact List.Sublist.refl _
  · exact filter_sublist.map _

theorem mem_rankHits (search : RecallSearch S) (q : RecallQuery S) (nowSecs : Int)
    {candidates : List (MemoryRecord × S)} (hscore : q.minScore = none)
    (hk : candidates.length ≤ q.k) {c : MemoryRecord × S} (hc : c ∈ candidates) :
    ∃ h ∈ rankHits search q nowSecs candidates, h.record = c.1 := by
  unfold rankHits
  simp only [hscore]
  rw [take_of_length_le (by rw [length_mergeSort, length_map]; omega)]
  refine ⟨_, mem_mergeSort.mpr (mem_map_of_mem hc), rfl⟩

theorem rankHits_recalled {candidates : List (MemoryRecord × S)} (h : Collected db candidates)
    (hwanted : ∀ c ∈ candidates, Wanted q nowSecs c.1) :
    Recalled q nowSecs (rankHits search q nowSecs candidates) := by
  have hsub := rankHits_subperm search q nowSecs candidates
  refine ⟨fun hit hhit => ?_, ?_, ?_⟩
  · obtain ⟨c, hc, hrecord⟩ := mem_map.mp
      (hsub.subset (mem_map_of_mem (f := (·.record)) hhit))
    rw [← hrecord]
    exact hwanted c hc
  · obtain ⟨l, hperm, hsublist⟩ := hsub
    have hids := (hperm.map (·.id)).nodup_iff.mp
      ((by rw [map_map]; exact h.distinct : ((candidates.map (·.1)).map (·.id)).Nodup).sublist
        (hsublist.map _))
    rwa [map_map] at hids
  · unfold rankHits
    exact length_take_le _ _

/-! ## Reached stores -/

/-- What every run keeps: links that can be walked, and at most one full-text entry a record. -/
structure Walkable (db : MemoryDb) : Prop where
  links : (linksOf db.memory).OneWay db.memory.keys
  entries : (db.fts.map (·.memoryId)).Nodup

variable {env : Env}

theorem nodup_dropped {fts : List FtsEntry} (h : (fts.map (·.memoryId)).Nodup) (id : Uuid) :
    ((fts.filter fun e => e.memoryId ≠ id).map (·.memoryId)).Nodup :=
  h.sublist (filter_sublist.map _)

variable {id : Uuid} {now : Int} {db' : MemoryDb}

theorem Created.entries {draft : MemoryDraft} {supersedes : Option Uuid}
    (hnew : Created env draft id now supersedes db db') (h : (db.fts.map (·.memoryId)).Nodup) :
    (db'.fts.map (·.memoryId)).Nodup := by
  obtain ⟨-, content, title, -, hfts⟩ := hnew
  rw [hfts, map_append, nodup_append]
  refine ⟨nodup_dropped h id, nodup_singleton _, ?_⟩
  rintro x hx y hy rfl
  obtain ⟨e, he, rfl⟩ := mem_map.mp hx
  have hkept := (mem_filter.mp he).2
  rw [map_singleton, mem_singleton] at hy
  exact absurd hy (of_decide_eq_true hkept)

theorem Walkable.updated {set : MemoryRow → MemoryRow} (h : Walkable db)
    (hmem : db'.memory = Keyed.updateAt id set db.memory)
    (hset : ∀ row, (set row).supersedes = row.supersedes ∧
      (set row).supersededBy = row.supersededBy) (hentries : (db'.fts.map (·.memoryId)).Nodup) :
    Walkable db' := by
  refine ⟨?_, hentries⟩
  rw [hmem, linksOf_updateAt hset]
  refine h.links.mono fun a ha => ?_
  rw [← AList.mem_keys] at ha ⊢
  exact (Keyed.mem_updateAt _ _ _ _).mpr ha

theorem Walkable.created {draft : MemoryDraft} (h : Walkable db)
    (hnew : Created env draft id now none db db') : Walkable db' := by
  refine ⟨?_, hnew.entries h.entries⟩
  obtain ⟨hid, content, title, hmem, -⟩ := hnew
  rw [hmem, linksOf_insert hid rfl rfl]
  refine h.links.mono fun a ha => ?_
  rw [← AList.mem_keys] at ha ⊢
  exact (AList.mem_insert _).mpr (Or.inr ha)

theorem Walkable.superseded {old newId : Uuid} {new : MemoryDraft} {mid : MemoryDb}
    (h : Walkable db) (hold : old ∈ db.memory)
    (hnew : Created env new newId now (some old) db mid)
    (hmem : db'.memory = Keyed.updateAt old (supersededRow newId now) mid.memory)
    (hfts : db'.fts = mid.fts.filter fun e => e.memoryId ≠ old) : Walkable db' := by
  refine ⟨?_, hfts ▸ nodup_dropped (hnew.entries h.entries) old⟩
  obtain ⟨hid, content, title, hmid, -⟩ := hnew
  have hnone := AList.lookup_eq_none.mpr hid
  rw [hmem, hmid, linksOf_supersede hold hid rfl rfl]
  refine (h.links.extend (AList.mem_keys.mp hold) (fun hk => hid (AList.mem_keys.mpr hk))
    (by simp [linksOf, hnone]) (by simp [linksOf, hnone])).mono fun a ha => ?_
  rw [← AList.mem_keys, Keyed.mem_updateAt, AList.mem_insert]
  exact (mem_cons.mp ha).imp_right AList.mem_keys.mpr

theorem Walkable.purged (h : Walkable db)
    (hmem : db'.memory = Keyed.updateAll (fun _ => MemoryDb.unlink id) (db.memory.erase id))
    (hfts : db'.fts = db.fts.filter fun e => e.memoryId ≠ id) : Walkable db' := by
  refine ⟨?_, hfts ▸ nodup_dropped h.entries id⟩
  rw [hmem, linksOf_purge]
  refine (h.links.remove id).mono fun a ha => ?_
  obtain ⟨ha, hne⟩ := mem_filter.mp ha
  rw [← AList.mem_keys, Keyed.mem_updateAll, AList.mem_erase]
  exact ⟨of_decide_eq_true hne, AList.mem_keys.mpr ha⟩

theorem serve_walkable (conn : Connection MemoryDb) (call : Call) (h : Walkable conn.db) :
    Walkable (serve env conn call).2.db := by
  rcases serve_cases env conn call with ⟨hmem, hfts⟩ | heffect |
    ⟨id, now, reason, -, -, -, hmem, hfts⟩
  · refine ⟨?_, ?_⟩
    · rw [hmem]
      exact h.links
    · rw [hfts]
      exact h.entries
  · obtain ⟨request, faults, commitFails⟩ := call
    generalize (serve env conn ⟨request, faults, commitFails⟩).2.db = db' at heffect ⊢
    cases heffect with
    | insert hnew => exact h.created hnew
    | imported hnew => exact h.created hnew
    | updateMeta hold hmem hfts =>
      exact h.updated hmem (fun _ => ⟨rfl, rfl⟩) (hfts ▸ h.entries)
    | supersede mid hold hnew hmem hfts => exact h.superseded hold hnew hmem hfts
    | @retract id newId now hold hmem hfts =>
      exact h.updated hmem (fun _ => ⟨rfl, rfl⟩) (hfts ▸ nodup_dropped h.entries id)
    | purge hold hmem hfts => exact h.purged hmem hfts
  · refine ⟨?_, ?_⟩
    · rw [hmem]
      exact h.links
    · rw [hfts]
      exact nodup_dropped h.entries id

theorem serveAll_walkable (env : Env) (calls : List Call) :
    Walkable (serveAll env openStore calls).db := by
  have hreached : Reached (fun conn call => (serve env conn call).2) (fun _ _ => True) openStore
      (serveAll env openStore calls) := Reached.start.foldl fun _ _ _ => trivial
  refine hreached.invariant ?_ fun conn call h _ => serve_walkable conn call h
  refine ⟨⟨⟨fun _ => 0, fun a b hab => ?_, fun a b hab => ?_⟩, fun a b hab => ?_,
    fun a b hab => ?_⟩, nodup_nil⟩ <;> simp [linksOf, openStore] at hab

/-! ## Recall -/

theorem storeRecall_plain {fuel : Nat} (h : q.includeSuperseded ≠ true) :
    storeRecall search db scan fuel q nowSecs =
      some (rankHits search q nowSecs (recallCandidates search db scan q nowSecs)) := by
  unfold storeRecall
  rw [if_neg h]
  rfl

theorem storeRecall_expanded {fuel : Nat} {expanded : List (MemoryRecord × S)}
    (h : q.includeSuperseded = true)
    (hexpand : expandChains db fuel [] (recallCandidates search db scan q nowSecs) =
      some expanded) :
    storeRecall search db scan fuel q nowSecs = some (rankHits search q nowSecs expanded) := by
  unfold storeRecall
  rw [if_pos h, hexpand]
  rfl

/-- A record of the chain of a candidate: below the newest record that its links lead to. -/
def OnChainOf (db : MemoryDb) (candidate rec : MemoryRecord) : Prop :=
  ∃ head, (linksOf db.memory).Heads candidate.id head ∧ (linksOf db.memory).Below head rec.id

/-- Recall ends, and with every limit and every least score its hits are wanted, distinct and
within the limit, exactly when no chain of a candidate holds a record that the filters refuse. -/
theorem recall_exact (env : Env) (calls : List Call) {search : RecallSearch S}
    (hsearch : search.Lawful) {scan : List Uuid}
    (hscan : scan.Perm (serveAll env openStore calls).db.memory.keys) (q : RecallQuery S)
    (nowSecs : Int) {fuel : Nat}
    (hfuel : (serveAll env openStore calls).db.memory.entries.length < fuel) :
    (∀ k minScore, ∃ hits,
        storeRecall search (serveAll env openStore calls).db scan fuel { q with k, minScore }
          nowSecs = some hits ∧ Recalled { q with k, minScore } nowSecs hits) ↔
      (q.includeSuperseded = true →
        ∀ c ∈ recallCandidates search (serveAll env openStore calls).db scan q nowSecs,
          ∀ rec, recordOf (serveAll env openStore calls).db rec.id = some rec →
            OnChainOf (serveAll env openStore calls).db c.1 rec → Wanted q nowSecs rec) := by
  have hwalkable := serveAll_walkable env calls
  generalize (serveAll env openStore calls).db = db at hscan hfuel hwalkable ⊢
  have hnodup : scan.Nodup := hscan.nodup_iff.mpr db.memory.nodupKeys
  have hcollected : Collected db (recallCandidates search db scan q nowSecs) :=
    (textCandidates_collected hsearch hwalkable.entries hnodup q).sublist
      (recallCandidates_sublist search db scan q nowSecs)
  have hwanted : ∀ (k : Nat) (minScore : Option S) (rec : MemoryRecord), Wanted { q with k, minScore } nowSecs rec ↔
      Wanted q nowSecs rec := fun _ _ _ =>
    ⟨fun h => ⟨h.kind, h.scope, h.status⟩, fun h => ⟨h.kind, h.scope, h.status⟩⟩
  obtain ⟨expanded, hexpand, hdistinct, hstored, hmem⟩ :=
    expandChains_oneWay hwalkable.links hfuel hcollected.stored
  by_cases hinclude : q.includeSuperseded = true
  · have hrecall : ∀ k minScore, storeRecall search db scan fuel { q with k, minScore } nowSecs =
        some (rankHits search { q with k, minScore } nowSecs expanded) :=
      fun _ _ => storeRecall_expanded hinclude hexpand
    simp only [hrecall, Option.some.injEq, exists_eq_left']
    constructor
    · rintro h - c hc rec hrec hchain
      obtain ⟨e, he, hid⟩ := mem_map.mp ((hmem rec.id).mpr ⟨c, hc, hchain⟩)
      have herec : e.1 = rec := by
        have h₁ := hstored e he
        rw [hid, hrec, Option.some.injEq] at h₁
        exact h₁.symm
      obtain ⟨hit, hhit, hrecord⟩ := mem_rankHits search
        { q with k := expanded.length, minScore := none } nowSecs rfl (Nat.le_refl _) he
      rw [← herec, ← hrecord]
      exact (hwanted _ _ _).mp ((h expanded.length none).wanted hit hhit)
    · intro h k minScore
      refine rankHits_recalled ⟨hstored, hdistinct⟩ fun e he => (hwanted _ _ _).mpr ?_
      obtain ⟨c, hc, hchain⟩ := (hmem e.1.id).mp (mem_map_of_mem he)
      exact h hinclude c hc e.1 (hstored e he) hchain
  · have hrecall : ∀ k minScore, storeRecall search db scan fuel { q with k, minScore } nowSecs =
        some (rankHits search { q with k, minScore } nowSecs
          (recallCandidates search db scan q nowSecs)) := fun _ _ => storeRecall_plain hinclude
    simp only [hrecall, Option.some.injEq, exists_eq_left']
    refine iff_of_true (fun k minScore => ?_) fun h => absurd h hinclude
    exact rankHits_recalled hcollected fun c hc =>
      (hwanted _ _ _).mpr (mem_recallCandidates.mp hc).2

/-- One token is looked for as a word; all scores are equal. -/
def wordSearch : RecallSearch Unit where
  isAlphanumeric := Char.isAlphanum
  ftsMatch q entries :=
    (entries.filter fun e => (e.content.splitOnP fun c => !c.isAlphanum).any fun t =>
      '"' :: t ++ ['"'] = q).map fun e => (e, ())
  likeScore := ()
  supersededScore := ()
  maxScore _ := ()
  hybridScore _ _ _ _ := ()
  ge _ _ := true
  gt _ _ := false

theorem wordSearch_lawful : wordSearch.Lawful := by
  intro q entries
  unfold wordSearch
  simp only [map_map, Function.comp_def, map_id']
  exact filter_sublist.subperm

def plantsQuery : RecallQuery Unit := { query := "plants".toList, includeSuperseded := true }

def teaForPlants : List Call := [addCall plantsNote 1 10, supersedeCall 1 teaNote 2 20]

theorem recall_exact_tea :
    ∃ hits,
      storeRecall wordSearch (serveAll plainEnv openStore teaForPlants).db [2, 1] 3
        { query := "tea".toList, k := 1, minScore := none } 40 = some hits ∧
      Recalled { query := "tea".toList, k := 1, minScore := none } 40 hits :=
  (recall_exact plainEnv teaForPlants wordSearch_lawful (by decide +kernel)
    { query := "tea".toList } 40 (by decide +kernel)).mpr (fun h => Bool.noConfusion h) 1 none

/-- The successor of the note that is found was retracted, and is returned with it. -/
theorem recall_returns_retracted :
    [2, 1].Perm (serveAll plainEnv openStore (teaForPlants ++ [retractCall 2 30])).db.memory.keys ∧
      ¬ ∃ hits, storeRecall wordSearch
        (serveAll plainEnv openStore (teaForPlants ++ [retractCall 2 30])).db [2, 1] 3 plantsQuery
          40 = some hits ∧ Recalled plantsQuery 40 hits := by
  refine ⟨by decide +kernel, ?_⟩
  rintro ⟨hits, hrecall, hrecalled⟩
  have hexpand : (expandChains (serveAll plainEnv openStore
      (teaForPlants ++ [retractCall 2 30])).db 3 [] (recallCandidates wordSearch
        (serveAll plainEnv openStore (teaForPlants ++ [retractCall 2 30])).db [2, 1] plantsQuery
          40)).map (fun expanded => expanded.map (·.1.row.status)) =
      some [.retracted, .superseded] := by
    decide +kernel
  obtain ⟨expanded, hexpanded, hstatus⟩ := Option.map_eq_some_iff.mp hexpand
  rw [storeRecall_expanded rfl hexpanded, Option.some.injEq] at hrecall
  have hlength := congrArg List.length hstatus
  rw [length_map] at hlength
  have hmem : Status.retracted ∈ expanded.map (·.1.row.status) := by
    rw [hstatus]
    exact mem_cons_self
  obtain ⟨c, hc, hretracted⟩ := mem_map.mp hmem
  obtain ⟨hit, hhit, hrecord⟩ := mem_rankHits wordSearch plantsQuery 40 rfl
    (by rw [hlength]; decide) hc
  rw [hrecall] at hhit
  rcases (hrecalled.wanted hit hhit).status with ⟨h, -⟩ | ⟨-, h⟩ <;>
    rw [hrecord, hretracted] at h <;> cases h

end ContextDesk.Memory
