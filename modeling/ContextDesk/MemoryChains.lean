import ContextDesk.Lib.Chains
import ContextDesk.Lib.Runs
import ContextDesk.MemoryStoreSpec

/-!
# Supersession chains over whole runs

`Consistent` is what the links between records should be. `Supersede` asks only that its target is
there, so a record superseded twice has two successors (`supersede_twice_inconsistent`), and a
status set by `UpdateMeta` can make a second record of a chain active. Every run without these keeps
the links consistent, and on consistent links the two walks of `recall` end and visit exactly the
chains of their candidates (`reached_consistent`).
-/

namespace ContextDesk.Memory

open Lib

variable {env : Env}

/-! ## The walks of `recall` -/

def climbToHead (db : MemoryDb) : Nat → MemoryRecord → Option MemoryRecord
  | 0, _ => none
  | fuel + 1, head =>
    match head.row.supersededBy with
    | none => some head
    | some next =>
      match recordOf db next with
      | none => some head
      | some n => climbToHead db fuel n

/-- To the oldest, past no record that was seen; what was visited, and what is seen then. -/
def walkChain (db : MemoryDb) :
    Nat → List Uuid → Option MemoryRecord → Option (List MemoryRecord × List Uuid)
  | _, seen, none => some ([], seen)
  | 0, _, some _ => none
  | fuel + 1, seen, some r =>
    if r.id ∈ seen then some ([], seen)
    else do
      let (rest, seen) ← walkChain db fuel (r.id :: seen) (r.row.supersedes.bind (recordOf db))
      some (r :: rest, seen)

/-- The candidates of `recall`, each with its chain. -/
def expandChains {S : Type} (db : MemoryDb) (fuel : Nat) :
    List Uuid → List (MemoryRecord × S) → Option (List (MemoryRecord × S))
  | _, [] => some []
  | seen, (rec, kw) :: candidates => do
    let head ← climbToHead db fuel rec
    let (chain, seen) ← walkChain db fuel seen (some head)
    let rest ← expandChains db fuel seen candidates
    some (chain.map (fun r => (r, kw)) ++ rest)

/-! ## Consistent links -/

def linksOf (memory : Keyed Uuid MemoryRow) : Links Uuid where
  older id := (memory.lookup id).bind (·.supersedes)
  newer id := (memory.lookup id).bind (·.supersededBy)

def Active (memory : Keyed Uuid MemoryRow) (id : Uuid) : Prop :=
  ∃ row, memory.lookup id = some row ∧ row.status = .active

def OneActive (memory : Keyed Uuid MemoryRow) : Prop :=
  ∀ a b, (linksOf memory).SameChain a b → Active memory a → Active memory b → a = b

structure Consistent (memory : Keyed Uuid MemoryRow) : Prop where
  mutual_links : ∀ a b rowA rowB, memory.lookup a = some rowA → memory.lookup b = some rowB →
    (rowA.supersededBy = some b ↔ rowB.supersedes = some a)
  stored : ∀ a row b, memory.lookup a = some row →
    row.supersedes = some b ∨ row.supersededBy = some b → b ∈ memory
  one_successor : ∀ a b c rowB rowC, memory.lookup b = some rowB → memory.lookup c = some rowC →
    rowB.supersedes = some a → rowC.supersedes = some a → b = c
  acyclic : ∀ a, ¬ Relation.TransGen (linksOf memory).Replaces a a
  one_active : OneActive memory

/-- A call that supersedes the head of a chain, and makes no second record of it active. -/
def KeepsChains (conn : Connection MemoryDb) (call : Call) : Prop :=
  match call.request with
  | .put (.supersede old _) _ _ =>
    (linksOf conn.db.memory).newer old = none ∧
      ∀ other, (linksOf conn.db.memory).SameChain old other → Active conn.db.memory other →
        other = old
  | .put (.updateMeta id _ _ _ (some .active)) _ _ =>
    ∀ other, (linksOf conn.db.memory).SameChain id other → Active conn.db.memory other →
      other = id
  | _ => True

variable {memory : Keyed Uuid MemoryRow} {a : Uuid}

theorem older_eq {b : Uuid} :
    (linksOf memory).older b = some a ↔
      ∃ row, memory.lookup b = some row ∧ row.supersedes = some a := by
  simp [linksOf, Option.bind_eq_some_iff]

theorem newer_eq {b : Uuid} :
    (linksOf memory).newer a = some b ↔
      ∃ row, memory.lookup a = some row ∧ row.supersededBy = some b := by
  simp [linksOf, Option.bind_eq_some_iff]

variable {id : Uuid}

theorem mem_of_older (h : (linksOf memory).older id ≠ none) : id ∈ memory := by
  obtain ⟨a, ha⟩ := Option.ne_none_iff_exists'.mp h
  obtain ⟨row, hrow, -⟩ := older_eq.mp ha
  exact Keyed.mem_of_lookup hrow

theorem mem_of_newer (h : (linksOf memory).newer id ≠ none) : id ∈ memory := by
  obtain ⟨a, ha⟩ := Option.ne_none_iff_exists'.mp h
  obtain ⟨row, hrow, -⟩ := newer_eq.mp ha
  exact Keyed.mem_of_lookup hrow

theorem consistent_of_wellLinked (h : (linksOf memory).WellLinked) (hactive : OneActive memory) :
    Consistent memory where
  mutual_links a b rowA rowB ha hb := by
    have hagree := h.agree a b
    rw [newer_eq, older_eq] at hagree
    simpa [ha, hb] using hagree
  stored a row b ha hlink := by
    rcases hlink with hlink | hlink
    · have hnewer := (h.agree b a).mpr (older_eq.mpr ⟨row, ha, hlink⟩)
      exact mem_of_newer (by rw [hnewer]; exact Option.some_ne_none a)
    · have holder := (h.agree a b).mp (newer_eq.mpr ⟨row, ha, hlink⟩)
      exact mem_of_older (by rw [holder]; exact Option.some_ne_none a)
  one_successor a b c rowB rowC hb hc hab hac := by
    have hnewerB := (h.agree a b).mpr (older_eq.mpr ⟨rowB, hb, hab⟩)
    have hnewerC := (h.agree a c).mpr (older_eq.mpr ⟨rowC, hc, hac⟩)
    rw [hnewerB, Option.some.injEq] at hnewerC
    exact hnewerC
  acyclic := h.acyclic
  one_active := hactive

/-! ## Steps -/

structure Chained (memory : Keyed Uuid MemoryRow) : Prop where
  wellLinked : (linksOf memory).WellLinked
  oneActive : OneActive memory

theorem not_older_of_notMem (h : (linksOf memory).WellLinked) (hid : id ∉ memory) (b : Uuid) :
    (linksOf memory).older b ≠ some id := by
  intro hb
  have hnewer := (h.agree id b).mpr hb
  exact hid (mem_of_newer (by rw [hnewer]; exact Option.some_ne_none b))

variable {row : MemoryRow}

theorem linksOf_insert (hid : id ∉ memory) (holder : row.supersedes = none)
    (hnewer : row.supersededBy = none) : linksOf (memory.insert id row) = linksOf memory := by
  have hnone := AList.lookup_eq_none.mpr hid
  unfold linksOf
  congr 1 <;> funext id' <;> rw [Keyed.lookup_insert] <;> rcases eq_or_ne id' id with rfl | h
  · rw [if_pos rfl, hnone, Option.bind_some, holder, Option.bind_none]
  · rw [if_neg h]
  · rw [if_pos rfl, hnone, Option.bind_some, hnewer, Option.bind_none]
  · rw [if_neg h]

theorem linksOf_updateAt {set : MemoryRow → MemoryRow}
    (hset : ∀ row, (set row).supersedes = row.supersedes ∧
      (set row).supersededBy = row.supersededBy) :
    linksOf (Keyed.updateAt id set memory) = linksOf memory := by
  unfold linksOf
  congr 1 <;> funext id' <;> rw [Keyed.lookup_updateAt] <;> split <;>
    cases memory.lookup id' <;> simp [hset]

variable {old newId : Uuid} {now : Int}

theorem linksOf_supersede (hold : old ∈ memory) (hnew : newId ∉ memory)
    (holder : row.supersedes = some old) (hnewer : row.supersededBy = none) :
    linksOf (Keyed.updateAt old (supersededRow newId now) (memory.insert newId row)) =
      (linksOf memory).extend old newId := by
  have hne : newId ≠ old := fun h => hnew (h ▸ hold)
  have hnone := AList.lookup_eq_none.mpr hnew
  obtain ⟨oldRow, holdRow⟩ := Keyed.exists_of_mem hold
  unfold linksOf Links.extend
  congr 1 <;> funext id' <;> rw [Keyed.lookup_updateAt, Keyed.lookup_insert, Function.update_apply]
    <;> dsimp only
  · rcases eq_or_ne id' newId with rfl | hid
    · rw [if_neg hne, if_pos rfl, if_pos rfl, Option.bind_some, holder]
    · rw [if_neg hid, if_neg hid]
      split <;> cases memory.lookup id' <;> rfl
  · rcases eq_or_ne id' old with rfl | hido
    · rw [if_pos rfl, if_neg hne.symm, if_pos rfl, holdRow]
      rfl
    · rw [if_neg hido, if_neg hido]
      rcases eq_or_ne id' newId with rfl | hid
      · rw [if_pos rfl, Option.bind_some, hnewer, hnone, Option.bind_none]
      · rw [if_neg hid]

theorem bind_unlink (row : Option MemoryRow) (id : Uuid) :
    ((row.map (MemoryDb.unlink id)).bind (·.supersedes) =
      if row.bind (·.supersedes) = some id then none else row.bind (·.supersedes)) ∧
    ((row.map (MemoryDb.unlink id)).bind (·.supersededBy) =
      if row.bind (·.supersededBy) = some id then none else row.bind (·.supersededBy)) := by
  cases row with
  | none => exact ⟨rfl, rfl⟩
  | some row => exact ⟨rfl, rfl⟩

theorem linksOf_purge (memory : Keyed Uuid MemoryRow) (id : Uuid) :
    linksOf (Keyed.updateAll (fun _ => MemoryDb.unlink id) (memory.erase id)) =
      (linksOf memory).remove id := by
  unfold linksOf Links.remove
  congr 1 <;> funext id' <;> rw [Keyed.lookup_updateAll, Keyed.lookup_erase] <;> dsimp only <;>
    rcases eq_or_ne id' id with rfl | hid
  · rw [if_pos rfl, if_pos (Or.inl rfl)]
    rfl
  · rw [if_neg hid, (bind_unlink _ id).1]
    simp only [hid, false_or]
  · rw [if_pos rfl, if_pos (Or.inl rfl)]
    rfl
  · rw [if_neg hid, (bind_unlink _ id).2]
    simp only [hid, false_or]

theorem active_updateAt {set : MemoryRow → MemoryRow}
    (h : Active (Keyed.updateAt id set memory) a) :
    (a = id ∧ ∃ row, memory.lookup id = some row ∧ (set row).status = .active) ∨
      (a ≠ id ∧ Active memory a) := by
  obtain ⟨row, hrow, hactive⟩ := h
  rw [Keyed.lookup_updateAt] at hrow
  by_cases ha : a = id
  · rw [if_pos ha, Option.map_eq_some_iff] at hrow
    obtain ⟨before, hbefore, rfl⟩ := hrow
    exact Or.inl ⟨ha, before, ha ▸ hbefore, hactive⟩
  · rw [if_neg ha] at hrow
    exact Or.inr ⟨ha, row, hrow, hactive⟩

theorem active_insert (h : Active (memory.insert id row) a) : a = id ∨ Active memory a := by
  obtain ⟨found, hfound, hactive⟩ := h
  rw [Keyed.lookup_insert] at hfound
  by_cases ha : a = id
  · exact Or.inl ha
  · rw [if_neg ha] at hfound
    exact Or.inr ⟨found, hfound, hactive⟩

theorem alone_of_notMem (h : (linksOf memory).WellLinked) {x : Uuid} (hid : id ∉ memory)
    (hx : (linksOf memory).SameChain id x) : x = id := by
  have hnone := AList.lookup_eq_none.mpr hid
  have hnewer : (linksOf memory).newer id = none := by simp [linksOf, hnone]
  have holder : (linksOf memory).older id = none := by simp [linksOf, hnone]
  rcases Relation.ReflTransGen.cases_head (h.below_head hnewer hx) with hx | ⟨b, hb, -⟩
  · exact hx.symm
  · exact absurd (hb.symm.trans holder) (Option.some_ne_none b)

variable {db db' : MemoryDb}

theorem Chained.created {draft : MemoryDraft} (h : Chained db.memory)
    (hnew : Created env draft id now none db db') : Chained db'.memory := by
  obtain ⟨hid, content, title, hmem, -⟩ := hnew
  have hlinks : linksOf db'.memory = linksOf db.memory := by
    rw [hmem]
    exact linksOf_insert hid rfl rfl
  refine ⟨hlinks ▸ h.wellLinked, ?_⟩
  intro a b hchain ha hb
  rw [hlinks] at hchain
  rw [hmem] at ha hb
  rcases active_insert ha with rfl | ha'
  · exact (alone_of_notMem h.wellLinked hid hchain).symm
  · rcases active_insert hb with rfl | hb'
    · exact alone_of_notMem h.wellLinked hid (hchain.symm)
    · exact h.oneActive a b hchain ha' hb'

/-- An update of a row that keeps its links, and makes no second record of its chain active. -/
theorem Chained.updated {set : MemoryRow → MemoryRow} (h : Chained db.memory)
    (hmem : db'.memory = Keyed.updateAt id set db.memory)
    (hset : ∀ row, (set row).supersedes = row.supersedes ∧
      (set row).supersededBy = row.supersededBy)
    (hactive : ∀ row, db.memory.lookup id = some row → (set row).status = .active →
      row.status = .active ∨
        ∀ other, (linksOf db.memory).SameChain id other → Active db.memory other → other = id) :
    Chained db'.memory := by
  have hlinks : linksOf db'.memory = linksOf db.memory := by
    rw [hmem]
    exact linksOf_updateAt hset
  refine ⟨hlinks ▸ h.wellLinked, ?_⟩
  have hself : ∀ other, (linksOf db.memory).SameChain id other → Active db.memory other →
      (∃ row, db.memory.lookup id = some row ∧ (set row).status = .active) → other = id := by
    rintro other hchain hother ⟨row, hrow, hrowActive⟩
    rcases hactive row hrow hrowActive with hbefore | honly
    · exact (h.oneActive id other hchain ⟨row, hrow, hbefore⟩ hother).symm
    · exact honly other hchain hother
  intro a b hchain ha hb
  rw [hlinks] at hchain
  rw [hmem] at ha hb
  rcases active_updateAt ha with ⟨rfl, hrow⟩ | ⟨-, ha'⟩
  · rcases active_updateAt hb with ⟨rfl, -⟩ | ⟨-, hb'⟩
    · rfl
    · exact (hself b hchain hb' hrow).symm
  · rcases active_updateAt hb with ⟨rfl, hrow⟩ | ⟨-, hb'⟩
    · exact hself a hchain.symm ha' hrow
    · exact h.oneActive a b hchain ha' hb'

theorem Chained.superseded {new : MemoryDraft} {mid : MemoryDb} (h : Chained db.memory)
    (hold : old ∈ db.memory) (hnew : Created env new newId now (some old) db mid)
    (hmem : db'.memory = Keyed.updateAt old (supersededRow newId now) mid.memory)
    (hhead : (linksOf db.memory).newer old = none)
    (honly : ∀ other, (linksOf db.memory).SameChain old other → Active db.memory other →
      other = old) : Chained db'.memory := by
  obtain ⟨hid, content, title, hmid, -⟩ := hnew
  rw [hmid] at hmem
  have hne : newId ≠ old := fun e => hid (e ▸ hold)
  have hnone := AList.lookup_eq_none.mpr hid
  have holder : (linksOf db.memory).older newId = none := by simp [linksOf, hnone]
  have hnewer : (linksOf db.memory).newer newId = none := by simp [linksOf, hnone]
  have hlinks : linksOf db'.memory = (linksOf db.memory).extend old newId := by
    rw [hmem]
    exact linksOf_supersede hold hid rfl rfl
  refine ⟨hlinks ▸ h.wellLinked.extend hne holder hnewer hhead, ?_⟩
  have hactive : ∀ a, Active db'.memory a →
      a = newId ∨ (a ≠ newId ∧ a ≠ old ∧ Active db.memory a) := by
    intro a ha
    rw [hmem] at ha
    rcases active_updateAt ha with ⟨-, row, -, hrow⟩ | ⟨hao, ha⟩
    · cases hrow
    · rcases active_insert ha with rfl | ha'
      · exact Or.inl rfl
      · by_cases han : a = newId
        · exact Or.inl han
        · exact Or.inr ⟨han, hao, ha'⟩
  intro a b hchain ha hb
  rw [hlinks] at hchain
  have hbefore := Links.sameChain_extend holder (not_older_of_notMem h.wellLinked hid) hchain
  rcases hactive a ha with rfl | ⟨han, hao, ha'⟩
  · rcases hactive b hb with rfl | ⟨hbn, hbo, hb'⟩
    · rfl
    · rw [if_pos rfl, if_neg hbn] at hbefore
      exact absurd (honly b hbefore hb') hbo
  · rcases hactive b hb with rfl | ⟨hbn, hbo, hb'⟩
    · rw [if_neg han, if_pos rfl] at hbefore
      exact absurd (honly a hbefore.symm ha') hao
    · rw [if_neg han, if_neg hbn] at hbefore
      exact h.oneActive a b hbefore ha' hb'

theorem Chained.purged (h : Chained db.memory)
    (hmem : db'.memory = Keyed.updateAll (fun _ => MemoryDb.unlink id) (db.memory.erase id)) :
    Chained db'.memory := by
  have hlinks : linksOf db'.memory = (linksOf db.memory).remove id := by
    rw [hmem]
    exact linksOf_purge db.memory id
  refine ⟨hlinks ▸ h.wellLinked.remove id, ?_⟩
  have hactive : ∀ a, Active db'.memory a → Active db.memory a := by
    rintro a ⟨row, hrow, hrowActive⟩
    rw [hmem, Keyed.lookup_updateAll, Option.map_eq_some_iff] at hrow
    obtain ⟨before, hbefore, rfl⟩ := hrow
    rw [Keyed.lookup_erase] at hbefore
    by_cases ha : a = id
    · rw [if_pos ha] at hbefore
      cases hbefore
    · rw [if_neg ha] at hbefore
      exact ⟨before, hbefore, hrowActive⟩
  intro a b hchain ha hb
  rw [hlinks] at hchain
  exact h.oneActive a b (Links.sameChain_remove hchain) (hactive a ha) (hactive b hb)

theorem serve_chained (conn : Connection MemoryDb) (call : Call) (h : Chained conn.db.memory)
    (hkeeps : KeepsChains conn call) : Chained (serve env conn call).2.db.memory := by
  rcases serve_cases env conn call with ⟨hmem, -⟩ | heffect | ⟨id, now, reason, -, -, -, hmem, -⟩
  · rw [hmem]
    exact h
  · obtain ⟨request, faults, commitFails⟩ := call
    generalize (serve env conn ⟨request, faults, commitFails⟩).2.db = db' at heffect ⊢
    cases heffect with
    | insert hnew => exact h.created hnew
    | imported hnew => exact h.created hnew
    | @updateMeta id newId tags pinned validTo status now hold hmem hfts =>
      refine h.updated hmem (fun _ => ⟨rfl, rfl⟩) ?_
      intro row hrow hactive
      cases status with
      | none => exact Or.inl hactive
      | some status =>
        obtain rfl : status = .active := hactive
        exact Or.inr hkeeps
    | supersede mid hold hnew hmem hfts => exact h.superseded hold hnew hmem hkeeps.1 hkeeps.2
    | retract hold hmem hfts =>
      refine h.updated hmem (fun _ => ⟨rfl, rfl⟩) ?_
      intro row hrow hactive
      cases hactive
    | purge hold hmem hfts => exact h.purged hmem
  · rw [hmem]
    exact h

/-! ## Walks on consistent links -/

variable {r : MemoryRecord}

theorem recordOf_id (h : recordOf db id = some r) : r.id = id := by
  obtain ⟨row, -, rfl⟩ := Option.map_eq_some_iff.mp h
  rfl

theorem links_of_record (h : recordOf db id = some r) :
    (linksOf db.memory).older id = r.row.supersedes ∧
      (linksOf db.memory).newer id = r.row.supersededBy := by
  obtain ⟨row, hrow, rfl⟩ := Option.map_eq_some_iff.mp h
  simp [linksOf, hrow]

theorem exists_record (h : id ∈ db.memory) : ∃ r, recordOf db id = some r := by
  obtain ⟨row, hrow⟩ := Keyed.exists_of_mem h
  exact ⟨⟨id, row, MemoryDb.tagsOf id db⟩, by rw [recordOf, hrow]; rfl⟩

def LinksStored (db : MemoryDb) : Prop :=
  ∀ a b, (linksOf db.memory).older a = some b ∨ (linksOf db.memory).newer a = some b →
    b ∈ db.memory

theorem linksStored_of_oneWay (h : (linksOf db.memory).OneWay db.memory.keys) : LinksStored db := by
  rintro a b (hab | hab)
  · exact AList.mem_keys.mpr (h.older_mem b a hab)
  · exact AList.mem_keys.mpr (h.newer_mem a b hab)

theorem oneWay_of_wellLinked (h : (linksOf db.memory).WellLinked) :
    (linksOf db.memory).OneWay db.memory.keys :=
  h.oneWay (fun _ ha => AList.mem_keys.mp (mem_of_older ha))
    fun _ ha => AList.mem_keys.mp (mem_of_newer ha)

variable {fuel : Nat}

theorem climbToHead_eq (h : LinksStored db) (hr : recordOf db r.id = some r) :
    climbToHead db fuel r = ((linksOf db.memory).climb fuel r.id).bind (recordOf db) := by
  induction fuel generalizing r with
  | zero => rfl
  | succ fuel ih =>
    have hnewer := (links_of_record hr).2
    unfold climbToHead Links.climb
    rw [hnewer]
    cases hnext : r.row.supersededBy with
    | none => exact hr.symm
    | some next =>
      rw [hnext] at hnewer
      obtain ⟨n, hn⟩ := exists_record (h r.id next (Or.inr hnewer))
      have hid := recordOf_id hn
      simp only [hn]
      rw [← hid] at hn ⊢
      exact ih hn

theorem walkChain_eq (h : LinksStored db) {seen seen' chain : List Uuid}
    (hr : recordOf db r.id = some r)
    (hchain : (linksOf db.memory).descend fuel seen (some r.id) = some (chain, seen')) :
    ∃ visited, walkChain db fuel seen (some r) = some (visited, seen') ∧
      visited.map (·.id) = chain ∧ ∀ v ∈ visited, recordOf db v.id = some v := by
  induction fuel generalizing r seen chain with
  | zero => cases hchain
  | succ fuel ih =>
    have holder := (links_of_record hr).1
    unfold Links.descend at hchain
    unfold walkChain
    split at hchain
    · rename_i hseen
      cases hchain
      exact ⟨[], by rw [if_pos hseen], rfl, by simp⟩
    · rename_i hseen
      rw [if_neg hseen]
      rw [holder] at hchain
      obtain ⟨⟨rest, seen''⟩, hrest, hout⟩ := Option.bind_eq_some_iff.mp hchain
      cases hout
      cases hnext : r.row.supersedes with
      | none =>
        rw [hnext] at hrest
        have hwalk : walkChain db fuel (r.id :: seen) none = some ([], r.id :: seen) := by
          cases fuel <;> rfl
        have hdescend : (linksOf db.memory).descend fuel (r.id :: seen) none =
            some ([], r.id :: seen) := by
          cases fuel <;> rfl
        rw [hdescend] at hrest
        cases hrest
        exact ⟨[r], by rw [Option.bind_none, hwalk]; rfl, rfl, by simpa using hr⟩
      | some next =>
        rw [hnext] at holder hrest
        obtain ⟨n, hn⟩ := exists_record (h r.id next (Or.inl holder))
        have hid := recordOf_id hn
        rw [Option.bind_some, hn]
        rw [← hid] at hn hrest
        obtain ⟨visited, hwalk, hids, hstored⟩ := ih hn hrest
        refine ⟨r :: visited, by rw [hwalk]; rfl, by rw [List.map_cons, hids], ?_⟩
        exact List.forall_mem_cons.mpr ⟨hr, hstored⟩

variable {S : Type} {candidates : List (MemoryRecord × S)}

theorem expandChains_eq (h : LinksStored db) {seen ids : List Uuid}
    (hstored : ∀ c ∈ candidates, recordOf db c.1.id = some c.1)
    (hids : (linksOf db.memory).expand fuel seen (candidates.map (·.1.id)) = some ids) :
    ∃ expanded, expandChains db fuel seen candidates = some expanded ∧
      expanded.map (·.1.id) = ids ∧ ∀ e ∈ expanded, recordOf db e.1.id = some e.1 := by
  induction candidates generalizing seen ids with
  | nil =>
    cases hids
    exact ⟨[], rfl, rfl, by simp⟩
  | cons c candidates ih =>
    obtain ⟨rec, kw⟩ := c
    obtain ⟨hrec, hstored⟩ := List.forall_mem_cons.mp hstored
    unfold Links.expand at hids
    obtain ⟨head, hclimb, hids⟩ := Option.bind_eq_some_iff.mp hids
    obtain ⟨⟨chain, seen'⟩, hdescend, hids⟩ := Option.bind_eq_some_iff.mp hids
    obtain ⟨rest, hrest, hids⟩ := Option.bind_eq_some_iff.mp hids
    cases hids
    obtain ⟨headRecord, hhead⟩ : ∃ r, recordOf db head = some r := by
      rcases Links.eq_or_newer_of_climb hclimb with rfl | ⟨b, hb⟩
      · exact ⟨rec, hrec⟩
      · exact exists_record (h b head (Or.inr hb))
    have hclimb' : climbToHead db fuel rec = some headRecord := by
      rw [climbToHead_eq h hrec, hclimb, Option.bind_some, hhead]
    have hid := recordOf_id hhead
    rw [← hid] at hhead hdescend
    obtain ⟨visited, hwalk, hvisited, hvisitedStored⟩ := walkChain_eq h hhead hdescend
    obtain ⟨expanded, hexpand, hexpanded, hexpandedStored⟩ := ih hstored hrest
    refine ⟨visited.map (fun r => (r, kw)) ++ expanded, ?_, ?_, ?_⟩
    · unfold expandChains
      simp only [hclimb', hwalk, hexpand, Option.bind_eq_bind, Option.bind_some]
    · rw [List.map_append, List.map_map, hexpanded, ← hvisited]
      rfl
    · intro e he
      rcases List.mem_append.mp he with he | he
      · obtain ⟨r, hr, rfl⟩ := List.mem_map.mp he
        exact hvisitedStored r hr
      · exact hexpandedStored e he

/-- The walks end within as many steps as there are records, and give each record below the heads
of the candidates once. -/
theorem expandChains_oneWay (h : (linksOf db.memory).OneWay db.memory.keys)
    (hfuel : db.memory.entries.length < fuel)
    (hstored : ∀ c ∈ candidates, recordOf db c.1.id = some c.1) :
    ∃ expanded, expandChains db fuel [] candidates = some expanded ∧
      (expanded.map (·.1.id)).Nodup ∧ (∀ e ∈ expanded, recordOf db e.1.id = some e.1) ∧
      ∀ id, id ∈ expanded.map (·.1.id) ↔ ∃ c ∈ candidates, ∃ head,
        (linksOf db.memory).Heads c.1.id head ∧ (linksOf db.memory).Below head id := by
  have hkeys : db.memory.keys.length < fuel := by
    simpa [AList.keys, List.keys] using hfuel
  have hseen : ∀ a b, a ∈ ([] : List Uuid) → (linksOf db.memory).Below a b →
      b ∈ ([] : List Uuid) := fun _ _ ha => absurd ha List.not_mem_nil
  obtain ⟨ids, hids, hnodup, hmem⟩ :=
    h.expand_exact hkeys hseen (candidates.map (·.1.id))
  obtain ⟨expanded, hexpand, rfl, hexpandedStored⟩ :=
    expandChains_eq (linksStored_of_oneWay h) hstored hids
  refine ⟨expanded, hexpand, hnodup, hexpandedStored, ?_⟩
  intro id
  rw [hmem]
  simp

theorem expandChains_exact (h : (linksOf db.memory).WellLinked)
    (hfuel : db.memory.entries.length < fuel)
    (hstored : ∀ c ∈ candidates, recordOf db c.1.id = some c.1) :
    ∃ expanded, expandChains db fuel [] candidates = some expanded ∧
      (expanded.map (·.1.id)).Nodup ∧ (∀ e ∈ expanded, recordOf db e.1.id = some e.1) ∧
      ∀ id, id ∈ expanded.map (·.1.id) ↔
        ∃ c ∈ candidates, (linksOf db.memory).SameChain c.1.id id := by
  have honeWay := oneWay_of_wellLinked h
  obtain ⟨expanded, hexpand, hnodup, hexpanded, hmem⟩ := expandChains_oneWay honeWay hfuel hstored
  have hkeys : db.memory.keys.length < fuel := by
    simpa [AList.keys, List.keys] using hfuel
  refine ⟨expanded, hexpand, hnodup, hexpanded, fun id => ?_⟩
  rw [hmem]
  exact exists_congr fun c => and_congr_right fun _ => h.heads_below honeWay hkeys

/-! ## Runs -/

theorem reached_chained {conn : Connection MemoryDb}
    (h : Reached (fun conn call => (serve env conn call).2) KeepsChains openStore conn) :
    Chained conn.db.memory := by
  refine h.invariant ?_ serve_chained
  refine ⟨⟨fun a b => ?_, fun _ => 0, fun a b hab => ?_⟩, fun a b _ ha => ?_⟩
  · simp [linksOf, openStore]
  · simp [linksOf, openStore] at hab
  · obtain ⟨row, hrow, -⟩ := ha
    simp [openStore] at hrow

theorem reached_consistent {S : Type} (env : Env) {conn : Connection MemoryDb}
    (h : Reached (fun conn call => (serve env conn call).2) KeepsChains openStore conn) :
    Consistent conn.db.memory ∧
      ∀ (candidates : List (MemoryRecord × S)) (fuel : Nat),
        (∀ c ∈ candidates, recordOf conn.db c.1.id = some c.1) →
        conn.db.memory.entries.length < fuel →
        ∃ expanded, expandChains conn.db fuel [] candidates = some expanded ∧
          (expanded.map (·.1.id)).Nodup ∧
          (∀ e ∈ expanded, recordOf conn.db e.1.id = some e.1) ∧
          ∀ id, id ∈ expanded.map (·.1.id) ↔
            ∃ c ∈ candidates, (linksOf conn.db.memory).SameChain c.1.id id := by
  have hchained := reached_chained h
  exact ⟨consistent_of_wellLinked hchained.wellLinked hchained.oneActive,
    fun candidates fuel hstored hfuel => expandChains_exact hchained.wellLinked hfuel hstored⟩

theorem keepsChains_supersede {conn : Connection MemoryDb} {call : Call} {new : MemoryDraft}
    (h : Chained conn.db.memory) (hcall : call.request = .put (.supersede old new) newId now)
    (hactive : Active conn.db.memory old) (hhead : (linksOf conn.db.memory).newer old = none) :
    KeepsChains conn call := by
  unfold KeepsChains
  rw [hcall]
  exact ⟨hhead, fun other hchain hother => (h.oneActive old other hchain hactive hother).symm⟩

/-- A note superseded, and then purged from under its successor. -/
theorem reached_consistent_purge :
    Consistent (serveAll plainEnv openStore
      [addCall plantsNote 1 10, supersedeCall 1 teaNote 2 20, purgeCall 1 30 []]).db.memory := by
  have hadded : Reached (fun conn call => (serve plainEnv conn call).2) KeepsChains openStore
      (serveAll plainEnv openStore [addCall plantsNote 1 10]) :=
    .step .start (addCall plantsNote 1 10) trivial
  have hsupersede : KeepsChains (serveAll plainEnv openStore [addCall plantsNote 1 10])
      (supersedeCall 1 teaNote 2 20) := by
    refine keepsChains_supersede (reached_chained hadded) rfl ?_ (by decide +kernel)
    exact ⟨_, rfl, by decide +kernel⟩
  exact (reached_consistent (S := Unit) plainEnv
    (.step (.step hadded (supersedeCall 1 teaNote 2 20) hsupersede) (purgeCall 1 30 [])
      trivial)).1

/-- A record superseded twice has two successors. A record made active again under an active
successor is the second of its chain. -/
theorem supersede_twice_inconsistent :
    ¬ Consistent (serveAll plainEnv openStore
      [addCall plantsNote 1 10, supersedeCall 1 teaNote 2 20,
        supersedeCall 1 teaNote 3 30]).db.memory ∧
    ¬ Consistent (serveAll plainEnv openStore
      [addCall plantsNote 1 10, supersedeCall 1 teaNote 2 20,
        statusCall 1 .active 30]).db.memory := by
  refine ⟨fun h => ?_, fun h => ?_⟩
  · exact absurd (h.one_successor 1 2 3 _ _ rfl rfl (by decide +kernel) (by decide +kernel))
      (by decide)
  · have hlink : (linksOf (serveAll plainEnv openStore
        [addCall plantsNote 1 10, supersedeCall 1 teaNote 2 20,
          statusCall 1 .active 30]).db.memory).Replaces 2 1 := by
      unfold Links.Replaces
      decide +kernel
    exact absurd (h.one_active 2 1 (.rel _ _ hlink) ⟨_, rfl, by decide +kernel⟩
      ⟨_, rfl, by decide +kernel⟩) (by decide)

end ContextDesk.Memory
