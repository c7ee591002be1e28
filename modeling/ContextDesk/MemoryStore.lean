import ContextDesk.Lib.KeyedTable
import ContextDesk.Lib.Transaction
import ContextDesk.Redact

/-!
# The memory store

Five tables: the records, their full-text entries, tags and embeddings, and the tombstones of purged
records. A record's links to the record it supersedes and to its successor are foreign keys that a
deletion sets to `NULL`; tags and embeddings go with their record. `put` and `put_imported` roll
back when their body fails, `purge_gdpr` does not.

Open here are what the redaction makes of a text, the content hash and the embedding (`Env`). A call
brings the id that a new record gets and the faults of its statements. A JSON value is what is read
of it (`Structured`). Left out are the confidence, the origin node (always `NULL`) and the locks; a
column that holds the name of a status, scope or source holds the value itself.
-/

namespace ContextDesk.Memory

open Lib Lib.Text Lib.Str Lib.ByteIndex
open Redact (RedactionResult)

abbrev Text := List Char
abbrev Uuid := BitVec 128

instance lawfulBEq_uuid : LawfulBEq Uuid := inferInstance

/-! ## Values -/

inductive Kind where
  | fact | decision | bookmark | preference | projectNote | contact | term | task
  | other (name : Text)
  deriving DecidableEq

def Kind.asStr : Kind → Text
  | .fact => "fact".toList
  | .decision => "decision".toList
  | .bookmark => "bookmark".toList
  | .preference => "preference".toList
  | .projectNote => "project_note".toList
  | .contact => "contact".toList
  | .term => "term".toList
  | .task => "task".toList
  | .other name => name

def kindNames : List (List String × Kind) :=
  [(["fact", "facts"], .fact), (["decision", "decisions"], .decision),
    (["bookmark", "bookmarks", "link", "url"], .bookmark),
    (["preference", "preferences", "pref"], .preference),
    (["project_note", "projectnote", "note", "notes"], .projectNote),
    (["contact", "contacts", "person"], .contact), (["term", "terms", "glossary"], .term),
    (["task", "tasks", "todo"], .task)]

def Kind.parse (s : Text) : Kind :=
  let normalized := (asciiLower (trim s)).map fun c => if c = '-' ∨ c = ' ' then '_' else c
  ((kindNames.find? fun names => names.1.any fun n => n.toList = normalized).map Prod.snd).getD
    (.other s)

inductive Status where
  | active | superseded | expired | retracted
  deriving DecidableEq

inductive Scope where
  | personal | workspace
  deriving DecidableEq

def Scope.asStr : Scope → Text
  | .personal => "personal".toList
  | .workspace => "workspace".toList

inductive MemorySource where
  | user | agent | imported | connector
  deriving DecidableEq

structure Structured where
  isNull : Bool
  text : Text
  url : Option Text
  dueAt : Option Int
  deriving DecidableEq

structure MemoryDraft where
  kind : Kind
  title : Text := []
  content : Text
  structured : Structured := ⟨false, "\x7b\x7d".toList, none, none⟩
  scope : Scope := .workspace
  workspaceId : Option Text := none
  tags : List Text := []
  pinned : Bool := false
  validFrom : Option Int := none
  validTo : Option Int := none
  source : MemorySource := .user
  createdBy : Text := "user".toList
  originSessionId : Option Text := none
  originTool : Option Text := none
  url : Option Text := none
  dueAt : Option Int := none
  deriving DecidableEq

inductive MemoryWriteOp where
  | insert (draft : MemoryDraft)
  | updateMeta (id : Uuid) (tags : Option (List Text)) (pinned : Option Bool)
      (validTo : Option Int) (status : Option Status)
  | supersede (old : Uuid) (new : MemoryDraft)
  | retract (id : Uuid)

/-! ## Tables -/

/-- A row of `memory`, less its id. -/
structure MemoryRow where
  kind : Text
  title : Text
  content : Text
  structured : Text
  status : Status
  validFrom : Option Int
  validTo : Option Int
  supersedes : Option Uuid
  supersededBy : Option Uuid
  scope : Scope
  workspaceId : Option Text
  pinned : Bool
  source : MemorySource
  createdBy : Text
  originSessionId : Option Text
  originTool : Option Text
  createdAt : Int
  updatedAt : Int
  rev : Int
  contentHash : Text
  url : Option Text
  dueAt : Option Int
  deriving DecidableEq

structure FtsEntry where
  content : Text
  title : Text
  memoryId : Uuid
  deriving DecidableEq

structure Embedding where
  model : Text
  vector : List UInt8
  deriving DecidableEq

structure PurgeTombstone where
  purgedAt : Int
  kind : Text
  scope : Text
  contentHash : Text
  titleRedacted : Text
  reason : Text
  deriving DecidableEq

structure MemoryDb where
  memory : Keyed Uuid MemoryRow := ∅
  fts : List FtsEntry := []
  tags : List (Uuid × Text) := []
  embeddings : Keyed Uuid Embedding := ∅
  tombstones : Keyed Uuid PurgeTombstone := ∅

structure MemoryRecord where
  id : Uuid
  row : MemoryRow
  tags : List Text
  deriving DecidableEq

inductive CoreError where
  | policy (message : String)
  | message (text : String)
  /-- The text, then the id. -/
  | missing (text : String) (id : Uuid)
  | sql
  deriving DecidableEq

abbrev Statements := Sql MemoryDb CoreError

structure Env where
  redactCandidate : Text → RedactionResult
  contentHashFor : Text → Text
  /-- The model and what it makes of a text, when a backend is attached. -/
  embed : Option (Text × (Text → Option (List UInt8)))

/-! ## Statements -/

namespace MemoryDb

/-- `INSERT INTO memory`: the id is new, and the record it supersedes is there. -/
def insertMemory (id : Uuid) (row : MemoryRow) (db : MemoryDb) : Option (Unit × MemoryDb) :=
  if id ∈ db.memory ∨ row.supersedes.any (fun old => decide (old ≠ id ∧ old ∉ db.memory)) then none
  else some ((), { db with memory := db.memory.insert id row })

/-- `UPDATE memory .. WHERE id`. -/
def updateMemory (id : Uuid) (set : MemoryRow → MemoryRow) (db : MemoryDb) : MemoryDb :=
  { db with memory := Keyed.updateAt id set db.memory }

/-- A link to a deleted record becomes `NULL`. -/
def unlink (id : Uuid) (row : MemoryRow) : MemoryRow :=
  { row with
    supersedes := if row.supersedes = some id then none else row.supersedes
    supersededBy := if row.supersededBy = some id then none else row.supersededBy }

def deleteTags (id : Uuid) (db : MemoryDb) : MemoryDb :=
  { db with tags := db.tags.filter fun t => t.1 ≠ id }

def deleteEmbedding (id : Uuid) (db : MemoryDb) : MemoryDb :=
  { db with embeddings := db.embeddings.erase id }

def ftsDelete (id : Uuid) (db : MemoryDb) : MemoryDb :=
  { db with fts := db.fts.filter fun e => e.memoryId ≠ id }

/-- `DELETE FROM memory WHERE id`, with what the foreign keys do. -/
def deleteMemory (id : Uuid) (db : MemoryDb) : MemoryDb :=
  { ((db.deleteTags id).deleteEmbedding id) with
    memory := Keyed.updateAll (fun _ => unlink id) (db.memory.erase id) }

/-- `INSERT OR IGNORE INTO memory_tags`. -/
def insertTag (id : Uuid) (tag : Text) (db : MemoryDb) : Option (Unit × MemoryDb) :=
  if id ∉ db.memory then none
  else some ((), if (id, tag) ∈ db.tags then db else { db with tags := db.tags ++ [(id, tag)] })

/-- `INSERT INTO memory_embeddings .. ON CONFLICT DO UPDATE`. -/
def putEmbedding (id : Uuid) (e : Embedding) (db : MemoryDb) : Option (Unit × MemoryDb) :=
  if id ∉ db.memory then none
  else some ((), { db with embeddings := db.embeddings.insert id e })

/-- `INSERT INTO memory_purge_tombstones .. ON CONFLICT DO UPDATE SET purged_at, reason`. -/
def putTombstone (id : Uuid) (t : PurgeTombstone) (db : MemoryDb) : MemoryDb :=
  { db with
    tombstones := db.tombstones.insert id
      (match db.tombstones.lookup id with
        | none => t
        | some old => { old with purgedAt := t.purgedAt, reason := t.reason }) }

def tagsOf (id : Uuid) (db : MemoryDb) : List Text :=
  ((db.tags.filter fun t => t.1 = id).map Prod.snd).insertionSort (· ≤ ·)

end MemoryDb

def loadRecord (id : Uuid) : Statements (Option MemoryRecord) := do
  let row ← Sql.query .sql fun db => db.memory.lookup id
  match row with
  | none => pure none
  | some row => do
    let tags ← Sql.query .sql (MemoryDb.tagsOf id)
    pure (some { id, row, tags })

/-- What `load_record` finds when no statement is refused. -/
def recordOf (db : MemoryDb) (id : Uuid) : Option MemoryRecord :=
  (db.memory.lookup id).map fun row => ⟨id, row, MemoryDb.tagsOf id db⟩

def ftsUpsert (id : Uuid) (content title : Text) : Statements Unit := do
  Sql.execute .sql (MemoryDb.ftsDelete id)
  Sql.execute .sql fun db => { db with fts := db.fts ++ [⟨content, title, id⟩] }

/-! ## Tags -/

def sanitizeMemoryTags (env : Env) : List Text → Except CoreError (List Text)
  | [] => .ok []
  | tag :: rest =>
    let t := trim tag
    if t = [] then sanitizeMemoryTags env rest
    else
      let r := env.redactCandidate t
      if r.blocked then
        .error (.policy (r.blockReason.getD "credential-dominant tag blocked; refuse to store"))
      else
        let cleaned := if r.redacted then trim r.text.toList else t
        match sanitizeMemoryTags env rest with
        | .error e => .error e
        | .ok out => .ok (if cleaned = [] then out else cleaned :: out)

def insertTags (id : Uuid) : List Text → Statements Unit
  | [] => pure ()
  | tag :: rest => do
    Sql.statement .sql (MemoryDb.insertTag id tag)
    insertTags id rest

def replaceTags (env : Env) (id : Uuid) (tags : List Text) : Statements Unit :=
  match sanitizeMemoryTags env tags with
  | .error e => Sql.fail e
  | .ok tags => do
    Sql.execute .sql (MemoryDb.deleteTags id)
    insertTags id tags

/-! ## New records -/

def titleFromLines : List Text → Option Text
  | [] => none
  | line :: rest =>
    let t := trim line
    let heading := match t with
      | '#' :: after => some (trim (after.dropWhile (· = '#')))
      | _ => none
    match heading with
    | some title => if title ≠ [] then some title
      else if t ≠ [] then some (if 80 < byteLen t then truncateBytes t 80 else t)
      else titleFromLines rest
    | none =>
      if t ≠ [] then some (if 80 < byteLen t then truncateBytes t 80 else t)
      else titleFromLines rest

def titleFromContent (content fallback : Text) : Text :=
  (titleFromLines (lines content)).getD fallback

def kept (r : RedactionResult) (raw : Text) : Text := if r.redacted then r.text.toList else raw

def draftUrl (env : Env) (draft : MemoryDraft) : Option Text :=
  match draft.url.or draft.structured.url with
  | none => none
  | some u =>
    let r := env.redactCandidate u
    if r.blocked then none else some (kept r u)

def draftStructured (env : Env) (draft : MemoryDraft) : Text :=
  if draft.structured.isNull then "\x7b\x7d".toList
  else
    let r := env.redactCandidate draft.structured.text
    if r.blocked then "\x7b\x7d".toList else kept r draft.structured.text

/-- The row of a draft whose content and title were let through. -/
def draftRow (env : Env) (draft : MemoryDraft) (content title : Text) (now : Int)
    (supersedes : Option Uuid) (rev : Int) : MemoryRow where
  kind := draft.kind.asStr
  title := title
  content := content
  structured := draftStructured env draft
  status := .active
  validFrom := draft.validFrom
  validTo := draft.validTo
  supersedes := supersedes
  supersededBy := none
  scope := draft.scope
  workspaceId := draft.workspaceId
  pinned := draft.pinned
  source := draft.source
  createdBy := draft.createdBy
  originSessionId := draft.originSessionId
  originTool := draft.originTool
  createdAt := now
  updatedAt := now
  rev := rev
  contentHash := env.contentHashFor content
  url := draftUrl env draft
  dueAt := draft.dueAt.or draft.structured.dueAt

def insertRow (env : Env) (draft : MemoryDraft) (id : Uuid) (now : Int)
    (supersedes : Option Uuid) (rev : Int) : Statements MemoryRecord :=
  let redaction := env.redactCandidate draft.content
  if redaction.blocked then
    Sql.fail (.policy (redaction.blockReason.getD "credential-dominant memory blocked"))
  else
    let content := kept redaction draft.content
    let titleRaw :=
      if trim draft.title = [] then titleFromContent content "untitled".toList else draft.title
    let titleRed := env.redactCandidate titleRaw
    if titleRed.blocked then
      Sql.fail (.policy (titleRed.blockReason.getD "credential-dominant title blocked"))
    else do
      let title := kept titleRed titleRaw
      Sql.statement .sql
        (MemoryDb.insertMemory id (draftRow env draft content title now supersedes rev))
      replaceTags env id draft.tags
      ftsUpsert id content title
      match ← loadRecord id with
      | some r => pure r
      | none => Sql.fail (.message "insert vanished")

/-! ## `put` -/

def stamp (now : Int) (set : MemoryRow → MemoryRow) (row : MemoryRow) : MemoryRow :=
  { set row with updatedAt := now, rev := row.rev + 1 }

def updateMeta (env : Env) (id : Uuid) (tags : Option (List Text)) (pinned : Option Bool)
    (validTo : Option Int) (status : Option Status) (now : Int) : Statements MemoryRecord := do
  match ← loadRecord id with
  | none => Sql.fail (.missing "memory not found: " id)
  | some _ => do
    Sql.forSome pinned fun p =>
      Sql.execute .sql (MemoryDb.updateMemory id (stamp now fun r => { r with pinned := p }))
    Sql.forSome validTo fun vt =>
      Sql.execute .sql (MemoryDb.updateMemory id (stamp now fun r => { r with validTo := some vt }))
    Sql.forSome status fun st =>
      Sql.execute .sql (MemoryDb.updateMemory id (stamp now fun r => { r with status := st }))
    Sql.forSome tags fun t => do
      replaceTags env id t
      Sql.execute .sql (MemoryDb.updateMemory id (stamp now fun r => r))
    if pinned = none ∧ validTo = none ∧ status = none ∧ tags = none then
      Sql.execute .sql (MemoryDb.updateMemory id (stamp now fun r => r))
    else pure ()
    match ← loadRecord id with
    | some r => pure r
    | none => Sql.fail (.message "update vanished")

def supersede (env : Env) (old : Uuid) (new : MemoryDraft) (newId : Uuid) (now : Int) :
    Statements MemoryRecord := do
  match ← loadRecord old with
  | none => Sql.fail (.missing "supersede target missing: " old)
  | some _ => do
    let inserted ← insertRow env new newId now (some old) 1
    Sql.execute .sql (MemoryDb.updateMemory old (stamp now fun r =>
      { r with status := .superseded, validTo := some now, supersededBy := some newId }))
    -- so that a search for words finds the newest only
    Sql.execute .sql (MemoryDb.ftsDelete old)
    pure inserted

def retract (id : Uuid) (now : Int) : Statements MemoryRecord := do
  let n ← Sql.statement .sql fun db => some (decide (id ∈ db.memory),
    db.updateMemory id (stamp now fun r => { r with status := .retracted }))
  if n = false then Sql.fail (.missing "retract target missing: " id)
  else do
    Sql.execute .sql (MemoryDb.ftsDelete id)
    match ← loadRecord id with
    | some r => pure r
    | none => Sql.fail (.message "retract vanished")

def putBody (env : Env) (op : MemoryWriteOp) (newId : Uuid) (now : Int) :
    Statements MemoryRecord :=
  match op with
  | .insert draft => insertRow env draft newId now none 1
  | .updateMeta id tags pinned validTo status => updateMeta env id tags pinned validTo status now
  | .supersede old new => supersede env old new newId now
  | .retract id => retract id now

def embedAfter : MemoryWriteOp → Bool
  | .insert _ => true
  | .supersede _ _ => true
  | _ => false

/-- The embedding of a record that was just committed; what goes wrong is dropped. -/
def maybeEmbedContent (env : Env) (conn : Connection MemoryDb) (faults : List Bool) (id : Uuid)
    (content : Text) : Connection MemoryDb :=
  match env.embed with
  | none => conn
  | some (model, embed) =>
    let r := env.redactCandidate content
    if r.blocked then conn
    else
      match embed r.text.toList with
      | none => conn
      | some vector =>
        let put : Statements Unit := Sql.statement .sql (MemoryDb.putEmbedding id ⟨model, vector⟩)
        { conn with db := (put ⟨conn.db, faults⟩).2.db }

def put (env : Env) (conn : Connection MemoryDb) (faults : List Bool) (commitFails : Bool)
    (op : MemoryWriteOp) (newId : Uuid) (now : Int) :
    Except CoreError MemoryRecord × Connection MemoryDb :=
  match transact .sql true commitFails conn faults (putBody env op newId now) with
  | (.error e, conn, _) => (.error e, conn)
  | (.ok r, conn, faults) =>
    (.ok r, if embedAfter op then maybeEmbedContent env conn faults r.id r.row.content else conn)

def putImported (env : Env) (conn : Connection MemoryDb) (faults : List Bool)
    (commitFails : Bool) (id : Uuid) (draft : MemoryDraft) (now : Int) :
    Except CoreError MemoryRecord × Connection MemoryDb :=
  match loadRecord id ⟨conn.db, faults⟩ with
  | (.error e, _) => (.error e, conn)
  | (.ok (some existing), _) => (.ok existing, conn)
  | (.ok none, w) =>
    match transact .sql true commitFails conn w.faults (insertRow env draft id now none 1) with
    | (.error e, conn, _) => (.error e, conn)
    | (.ok r, conn, faults) => (.ok r, maybeEmbedContent env conn faults r.id r.row.content)

/-! ## `purge_gdpr` -/

def reasonSafe (env : Env) (reason : Text) : Text :=
  let r := env.redactCandidate reason
  if r.blocked || r.redacted || trim reason = [] then "gdpr_purge".toList else reason.take 64

def tombstoneOf (env : Env) (row : MemoryRow) (now : Int) (reason : Text) : PurgeTombstone where
  purgedAt := now
  kind := (Kind.parse row.kind).asStr
  scope := row.scope.asStr
  contentHash := row.contentHash
  titleRedacted := "[purged]".toList
  reason := reasonSafe env reason

def purgeBody (id : Uuid) (tomb : PurgeTombstone) : Statements PurgeTombstone := do
  Sql.execute .sql (MemoryDb.putTombstone id tomb)
  Sql.ignore (Sql.execute CoreError.sql (MemoryDb.deleteTags id))
  Sql.ignore (Sql.execute CoreError.sql (MemoryDb.deleteEmbedding id))
  Sql.execute .sql (MemoryDb.ftsDelete id)
  Sql.execute .sql (MemoryDb.deleteMemory id)
  pure tomb

def purgeGdpr (env : Env) (conn : Connection MemoryDb) (faults : List Bool) (commitFails : Bool)
    (id : Uuid) (now : Int) (reason : Text) :
    Except CoreError PurgeTombstone × Connection MemoryDb :=
  match loadRecord id ⟨conn.db, faults⟩ with
  | (.error e, _) => (.error e, conn)
  | (.ok none, _) => (.error (.missing "purge target missing: " id), conn)
  | (.ok (some rec), w) =>
    -- an error of the body leaves through `?`, past no rollback
    match transact .sql false commitFails conn w.faults
        (purgeBody id (tombstoneOf env rec.row now reason)) with
    | (r, conn, _) => (r, conn)

/-! ## Runs -/

inductive Request where
  | put (op : MemoryWriteOp) (newId : Uuid) (now : Int)
  | putImported (id : Uuid) (draft : MemoryDraft) (now : Int)
  | purgeGdpr (id : Uuid) (now : Int) (reason : Text)

/-- A request and what goes wrong while it is served. -/
structure Call where
  request : Request
  faults : List Bool := []
  commitFails : Bool := false

/-- Whether the call succeeded, and the connection after it. -/
def serve (env : Env) (conn : Connection MemoryDb) (call : Call) : Bool × Connection MemoryDb :=
  match call.request with
  | .put op newId now =>
    match put env conn call.faults call.commitFails op newId now with
    | (r, conn) => (r.toBool, conn)
  | .putImported id draft now =>
    match putImported env conn call.faults call.commitFails id draft now with
    | (r, conn) => (r.toBool, conn)
  | .purgeGdpr id now reason =>
    match purgeGdpr env conn call.faults call.commitFails id now reason with
    | (r, conn) => (r.toBool, conn)

def openStore : Connection MemoryDb := ⟨{}, none⟩

def serveAll (env : Env) (conn : Connection MemoryDb) (calls : List Call) :
    Connection MemoryDb :=
  calls.foldl (fun conn call => (serve env conn call).2) conn

end ContextDesk.Memory
