import ContextDesk.LogAnalysis.TimezonePlans

/-!
# Runs of appends, timezone applications, clears and undos

`TimezoneReachable db`: some sequence of appends, applications, clears and undos leads from a new
corpus to `db`. `Snapshot.Zoned` is what every such run keeps of the active and of the retained
snapshot: bounded text behind every unresolved-local event, metadata that saves declarations of
readable sources. `EventRow.TimeCurrent` is what the timestamps are for: a resolved event shows
the instant of its source's saved zone, an order-only one its ingest position. Runs keep it under
a condition on their steps (`TimezoneOp.Consistent`).
-/

namespace ContextDesk.LogAnalysis

open Lib

inductive TimezoneOp where
  | push (commit : CoreResult Unit) (rows : List (LogEvent × Option RedactedOriginal))
  | apply (opened : CoreResult Unit) (env : RevisionEnv) (expectedRevision : Nat)
      (requests : List SourceTimezoneApplyRequest) (declaredAt : Int64)
      (basis : TimezoneDeclarationBasis)
  | clear (opened : CoreResult Unit) (env : RevisionEnv) (expectedRevision : Nat) (source : String)
      (appliedRevision : UInt64)
  | undo (env : RevisionEnv) (expectedRevision : Nat)

variable {lib : TimeLibrary} {corpusId : String}

/-- The database after the call, whatever it returned. -/
def TimezoneOp.run (lib : TimeLibrary) (corpusId : String) : TimezoneOp → CorpusDb → CorpusDb
  | push commit rows, db => (pushEventRows commit rows db).2
  | apply opened env expectedRevision requests declaredAt basis, db =>
    (applySourceTimezonesWithBasis lib opened env corpusId expectedRevision requests declaredAt
      basis db).2
  | clear opened env expectedRevision source appliedRevision, db =>
    (clearSourceTimezone opened env expectedRevision source appliedRevision db).2
  | undo env expectedRevision, db => (undoEventRevision env expectedRevision db).2

inductive TimezoneReachable (lib : TimeLibrary) (corpusId : String) : CorpusDb → Prop where
  | create : TimezoneReachable lib corpusId .create
  | step {db : CorpusDb} (h : TimezoneReachable lib corpusId db) (op : TimezoneOp) :
      TimezoneReachable lib corpusId (op.run lib corpusId db)

inductive TimezoneOp.Plans (lib : TimeLibrary) (corpusId : String) (db : CorpusDb) :
    TimezoneOp → EventRevisionMetadata → List EventTimestampUpdate → Prop where
  | apply {opened env expectedRevision requests declaredAt basis metadata updates}
      (h : planApply lib opened corpusId expectedRevision requests declaredAt basis db =
        .ok (metadata, updates)) :
      Plans lib corpusId db (.apply opened env expectedRevision requests declaredAt basis)
        metadata updates
  | clear {opened env expectedRevision source appliedRevision metadata updates}
      (h : planClear opened expectedRevision source appliedRevision db = .ok (metadata, updates)) :
      Plans lib corpusId db (.clear opened env expectedRevision source appliedRevision)
        metadata updates

/-- A timezone call changes nothing, or is a call on the revisions of the corpus. -/
theorem TimezoneOp.run_cases (lib : TimeLibrary) (corpusId : String) (op : TimezoneOp)
    (db : CorpusDb) :
    op.run lib corpusId db = db ∨
      (∃ commit rows, op = push commit rows ∧
        op.run lib corpusId db = (RevisionOp.push commit rows).run db) ∨
      (∃ env r metadata updates, op.Plans lib corpusId db metadata updates ∧
        op.run lib corpusId db = (RevisionOp.apply env r metadata updates).run db) ∨
      ∃ env r, op.run lib corpusId db = (RevisionOp.undo env r).run db := by
  cases op with
  | push commit rows => exact .inr (.inl ⟨commit, rows, rfl, rfl⟩)
  | undo env r => exact .inr (.inr (.inr ⟨env, r, rfl⟩))
  | apply opened env r requests declaredAt basis =>
    cases hp : planApply lib opened corpusId r requests declaredAt basis db with
    | error e =>
      left
      rw [run, applySourceTimezonesWithBasis, hp]
      rfl
    | ok plan =>
      refine .inr (.inr (.inl ⟨env, r, plan.1, plan.2, .apply hp, ?_⟩))
      rw [run, applySourceTimezonesWithBasis, hp]
      rfl
  | clear opened env r source appliedRevision =>
    cases hp : planClear opened r source appliedRevision db with
    | error e =>
      left
      rw [run, clearSourceTimezone, hp]
      rfl
    | ok plan =>
      refine .inr (.inr (.inl ⟨env, r, plan.1, plan.2, .clear hp, ?_⟩))
      rw [run, clearSourceTimezone, hp]
      rfl

/-- No timezone call forgets or renames an event. -/
theorem TimezoneOp.keys_sublist (op : TimezoneOp) (db : CorpusDb) :
    (db.events.map EventRow.key).Sublist ((op.run lib corpusId db).events.map EventRow.key) := by
  obtain he | ⟨_, _, -, he⟩ | ⟨_, _, _, _, -, he⟩ | ⟨_, _, he⟩ :=
    run_cases lib corpusId op db
  · rw [he]
  · rw [he]
    exact RevisionOp.keys_sublist _ db
  · rw [he]
    exact RevisionOp.keys_sublist _ db
  · rw [he]
    exact RevisionOp.keys_sublist _ db

variable {db : CorpusDb} {s : UndoStore Snapshot}

/-- One call keeps a property of snapshots, when it is true of what an append and what a
published plan leave. -/
theorem TimezoneOp.run_holds (op : TimezoneOp) {P : Snapshot → Prop} (hP : ∀ x, P x → x.Sound)
    (h : Represents db s) (hs : s.Holds P)
    (hpush : ∀ commit rows, op = push commit rows →
      P ((RevisionOp.push commit rows).run db).snapshot)
    (hpublish : ∀ env r metadata updates report db', op.Plans lib corpusId db metadata updates →
      applyEventTimestampRevision env r metadata updates db = (.ok report, db') →
      P db'.snapshot) :
    ∃ s' : UndoStore Snapshot, Represents (op.run lib corpusId db) s' ∧ s'.Holds P := by
  obtain he | ⟨commit, rows, hop, he⟩ | ⟨env, r, metadata, updates, hplan, he⟩ | ⟨env, r, he⟩ :=
    run_cases lib corpusId op db
  · rw [he]
    exact ⟨s, h, hs⟩
  · rw [he]
    refine RevisionOp.run_holds _ hP h hs (fun _ _ _ => hpush commit rows hop) ?_
    intro _ _ _ _ hno
    cases hno
  · rw [he]
    refine RevisionOp.run_holds _ hP h hs (fun _ _ hno => by cases hno) fun _ _ _ _ _ => ?_
    cases hr : applyEventTimestampRevision env r metadata updates db with
    | mk result db' =>
      cases result with
      | error e =>
        have hsame := applyEventTimestampRevision_error (congrArg Prod.fst hr)
        rw [RevisionOp.run, hsame, h.current]
        exact hs.1
      | ok report =>
        rw [RevisionOp.run, hr]
        exact hpublish env r metadata updates report db' hplan hr
  · rw [he]
    refine RevisionOp.run_holds _ hP h hs (fun _ _ hno => by cases hno) fun _ _ _ _ hno => ?_
    cases hno

/-! ## What every run keeps -/

/-- A snapshot that appends and timezone operations wrote. -/
structure Snapshot.Zoned (x : Snapshot) : Prop where
  sound : x.Sound
  rows : ∀ r ∈ x.events, r.Stored
  saved : ∃ declarations, SavedAs x.metadata declarations ∧
    ∀ source d, declarations.lookup source = some d →
      validPortableSource source = true ∧ ∀ r ∈ x.events, r.source = source → 0 ≤ r.seq

theorem EventRow.stored_ofEvent {e : LogEvent} (original : Option RedactedOriginal)
    (h : e.validateTimestampProvenance = .ok ()) : (EventRow.ofEvent e original).Stored := by
  constructor
  · show asI64 e.seq ≤ i64Max
    have := e.seq.toNat_lt
    unfold asI64 i64Max
    split <;> omega
  · intro hp
    obtain ⟨value, hv, hb, hbasis⟩ := e.unresolved_of_valid h (Option.some.inj hp)
    exact ⟨⟨value, hv, hb⟩, hbasis.imp (congrArg some) (congrArg some)⟩

/-- An unresolved-local event is revised to ingest order or to a resolved instant. -/
theorem EventTimestampUpdate.revised_of_valid {u : EventTimestampUpdate}
    (h : validateUpdate u = .ok ()) (hp : u.expectedTimestampProvenance = .unresolvedLocal) :
    u.revisedActiveTimestampBasis = .orderOnly ∨ u.revisedActiveTimestampBasis = .resolvedLocal := by
  have hc := u.consistentProvenance_of_valid h
  simp only [consistentProvenance, hp, Bool.decide_or, Bool.or_eq_true, decide_eq_true_eq] at hc
  obtain ⟨hno, -⟩ | ⟨-, -, hr, -⟩ := hc
  · cases hno
  · simpa using hr

theorem Staged.stored_publish {events : List EventRow} {staged : List EventTimestampUpdate}
    (h : Staged events staged) (hrows : ∀ r ∈ events, r.Stored) :
    ∀ r ∈ publishStaged staged events, r.Stored := by
  intro r' hr'
  obtain ⟨r, hr, ⟨u, hu, -, hexact, rfl⟩ | ⟨-, rfl⟩⟩ := h.mem_publish hr'
  · obtain ⟨hle, hun⟩ := hrows r hr
    refine ⟨hle, fun hp => ⟨(hun hp).1, ?_⟩⟩
    have hup : u.expectedTimestampProvenance = .unresolvedLocal :=
      Option.some.inj ((EventRow.isExact_iff.mp hexact).2.1.symm.trans hp)
    exact (u.revised_of_valid (h.valid u hu) hup).imp (congrArg some) (congrArg some)
  · exact hrows _ hr

theorem Staged.seq_publish {events : List EventRow} {staged : List EventTimestampUpdate}
    (h : Staged events staged) {source : String}
    (hseq : ∀ r ∈ events, r.source = source → 0 ≤ r.seq) :
    ∀ r ∈ publishStaged staged events, r.source = source → 0 ≤ r.seq := by
  intro r' hr' hs
  obtain ⟨r, hr, ⟨u, -, -, -, rfl⟩ | ⟨-, rfl⟩⟩ := h.mem_publish hr'
  · exact hseq r hr hs
  · exact hseq _ hr hs

theorem push_zoned {commit : CoreResult Unit} {rows : List (LogEvent × Option RedactedOriginal)}
    (h : db.snapshot.Zoned)
    (hd : Distinct EventRow.key ((RevisionOp.push commit rows).run db).events) :
    ((RevisionOp.push commit rows).run db).snapshot.Zoned := by
  rw [RevisionOp.run] at hd ⊢
  obtain he | ⟨-, hvalid, appended, happ, he⟩ := pushEventRows_cases commit rows db
  · rw [he]
    exact h
  · rw [he] at hd ⊢
    refine ⟨⟨hd, rfl⟩, ?_, ∅, .empty, ?_⟩
    · intro r hr
      have hmem : r ∈ appended := hr
      rw [happ, List.mem_append, List.mem_map] at hmem
      rcases hmem with hr | ⟨row, hrow, rfl⟩
      · exact h.rows r hr
      · exact EventRow.stored_ofEvent row.2 (hvalid row hrow)
    · intro source d hlookup
      rw [AList.lookup_empty] at hlookup
      cases hlookup

theorem RequestApplied.declared {d : SourceTimezoneDeclaration} {us : List EventTimestampUpdate}
    (h : RequestApplied lib db d us) (hrows : ∀ r ∈ db.events, r.Stored) :
    validPortableSource d.source = true ∧ ∀ r ∈ db.events, r.source = d.source → 0 ≤ r.seq := by
  obtain ⟨records, hrec, -⟩ := h.updates
  refine ⟨(SourceTimezoneResolver.new_ok h.resolver).2, fun r hr hs => ?_⟩
  obtain ⟨record, -, hok⟩ := (mem_sourceRecords hrec).1 r hr hs
  exact (recordOfRow_ok hok (hrows r hr).seq_le).1

theorem published_snapshot {db' : CorpusDb} {env : RevisionEnv} {r : Nat}
    {metadata : EventRevisionMetadata} {updates : List EventTimestampUpdate}
    {report : EventRevisionReport} (h : Represents db s) (hs : s.Holds Snapshot.Sound)
    (hok : applyEventTimestampRevision env r metadata updates db = (.ok report, db')) :
    Staged db.events updates ∧ db'.snapshot.Sound ∧
      db'.events = publishStaged updates db.events ∧
      db'.state.currentMetadataJson = metadata.toJson ∧
      metadata.toJson.encodedLen ≤ maxEventRevisionMetadataBytes := by
  obtain ⟨x, hx, hev, hst, hmeta, hval, hrep⟩ := h.apply hs env r metadata updates hok
  have hcur : db'.snapshot = x := hrep.current
  subst hcur
  simp only [validateMetadata, bind_ok, ensure_ok, pure_ok] at hval
  obtain ⟨_, -, _, -, _, hlen, -⟩ := hval
  exact ⟨hst, hx, hev, hmeta, hlen⟩

/-- Publishing a plan keeps the snapshot zoned. -/
theorem TimezoneOp.Plans.zoned {op : TimezoneOp} {db' : CorpusDb} {env : RevisionEnv} {r : Nat}
    {metadata : EventRevisionMetadata} {updates : List EventTimestampUpdate}
    {report : EventRevisionReport} (hplan : op.Plans lib corpusId db metadata updates)
    (h : Represents db s) (hs : s.Holds Snapshot.Zoned)
    (hok : applyEventTimestampRevision env r metadata updates db = (.ok report, db')) :
    db'.snapshot.Zoned := by
  have hz : db.snapshot.Zoned := h.current ▸ hs.1
  obtain ⟨declarations, hsaved, hdeclared⟩ := hz.saved
  obtain ⟨hst, hsound, hev, hmeta, hlen⟩ :=
    published_snapshot h ⟨hs.1.sound, fun p hp => (hs.2 p hp).sound⟩ hok
  have hevents : db'.snapshot.events = publishStaged updates db.events := hev
  have hmetadata : db'.snapshot.metadata = metadata.toJson := hmeta
  refine ⟨hsound, hevents ▸ hst.stored_publish hz.rows, ?_⟩
  rw [hevents, hmetadata]
  cases hplan with
  | @apply _ _ _ requests _ _ _ _ hp =>
    obtain ⟨-, rfl, resolved, rfl, hall⟩ := planApply_ok hsaved hp
    refine ⟨_, .saved _ _ (.inl rfl) hlen, fun source d hlookup => ?_⟩
    -- a saved source is requested now or was saved before
    by_cases hreq : ∃ request ∈ requests, request.source = source
    · obtain ⟨request, hmem, rfl⟩ := hreq
      obtain ⟨us, -, happ⟩ := exists_mem_right hall hmem
      obtain ⟨hport, hseq⟩ := happ.declared hz.rows
      exact ⟨hport, hst.seq_publish hseq⟩
    · rw [lookup_saveAll_of_not_mem (by simpa using hreq)] at hlookup
      obtain ⟨hport, hseq⟩ := hdeclared source d hlookup
      exact ⟨hport, hst.seq_publish hseq⟩
  | @clear _ _ _ cleared _ _ _ hp =>
    obtain ⟨-, rfl, -⟩ := planClear_ok hsaved hp
    refine ⟨_, .saved _ _ (.inr rfl) hlen, fun source d hlookup => ?_⟩
    by_cases hsrc : source = cleared
    · rw [hsrc, AList.lookup_erase] at hlookup
      cases hlookup
    · rw [AList.lookup_erase_ne hsrc] at hlookup
      obtain ⟨hport, hseq⟩ := hdeclared source d hlookup
      exact ⟨hport, hst.seq_publish hseq⟩

theorem zoned_create : ∃ s : UndoStore Snapshot, Represents .create s ∧ s.Holds Snapshot.Zoned := by
  refine ⟨⟨0, CorpusDb.create.snapshot, none⟩, ⟨rfl, rfl, rfl⟩, ⟨⟨List.nodup_nil, rfl⟩, ?_, ?_⟩, ?_⟩
  · intro r hr
    cases hr
  · refine ⟨∅, .empty, fun source d hlookup => ?_⟩
    rw [AList.lookup_empty] at hlookup
    cases hlookup
  · intro p hp
    cases hp

theorem TimezoneReachable.zoned (h : TimezoneReachable lib corpusId db)
    (hd : Distinct EventRow.key db.events) :
    ∃ s : UndoStore Snapshot, Represents db s ∧ s.Holds Snapshot.Zoned := by
  induction h with
  | create => exact zoned_create
  | @step db _ op ih =>
    obtain ⟨s, hrep, hs⟩ := ih (List.Nodup.sublist (op.keys_sublist db) hd)
    have hz : db.snapshot.Zoned := hrep.current ▸ hs.1
    refine op.run_holds (fun _ hx => hx.sound) hrep hs ?_ ?_
    · rintro commit rows rfl
      exact push_zoned hz hd
    · intro env r metadata updates report db' hplan hok
      exact hplan.zoned hrep hs hok

/-! ## Two zones

The concrete runs of this development read two local times, one of them in the fold of a zone. -/

def marchMorning : NaiveDateTime := ⟨2021, 3, 5, 2, 53, 53, 654000000⟩

def novemberFold : NaiveDateTime := ⟨2021, 11, 7, 1, 30, 0, 0⟩

/-- The bytes hashed for a preview of corpus `corpus-779`. -/
def previewBytes (revision : Nat) (source ianaTimezone : String) : List UInt8 :=
  Text.bytes "contextdesk.timezone-preview.v1\x00corpus-779\x00".toList ++ leBytes revision ++ [0] ++
    Text.bytes source.toList ++ [0] ++ Text.bytes ianaTimezone.toList ++
    Text.bytes "\x00user_declared\x00".toList ++ leBytes (revision + 1)

/-- The libraries on the inputs of the concrete runs. -/
def twoZones : TimeLibrary where
  isZone zone := zone = "UTC" ∨ zone = "America/New_York"
  fromLocalDatetime zone localTime :=
    if zone = "UTC" ∧ localTime = marchMorning then .single ⟨1614912833, some "UTC", 0⟩
    else if zone = "UTC" ∧ localTime = novemberFold then .single ⟨1636248600, some "UTC", 0⟩
    else if zone = "America/New_York" ∧ localTime = marchMorning then
      .single ⟨1614930833, some "EST", -18000⟩
    else if zone = "America/New_York" ∧ localTime = novemberFold then
      .ambiguous ⟨1636263000, some "EDT", -14400⟩ ⟨1636266600, some "EST", -18000⟩
    else .none
  parseFromStr text format :=
    if format = "%Y-%m-%d %H:%M:%S%.3f" then
      if text = Text.bytes "2021-03-05 02:53:53.654".toList then some marchMorning
      else if text = Text.bytes "2021-11-07 01:30:00.000".toList then some novemberFold
      else none
    else none
  isUtcTimestamp seconds := -8334601228800 ≤ seconds ∧ seconds ≤ 8210266876799
  sha256Hex preimage :=
    if preimage = previewBytes 1 "server/server.log" "UTC" then
      "eef7804eb7e308cad46a493705c38360b9f3c42d74179a1517c2704f02ab44e5"
    else if preimage = previewBytes 1 "server/server.log" "America/New_York" then
      "1bbda5e3041a595049e545af3ccb2512cad548f1639884be7c5ed1167fa6f6c3"
    else if preimage = previewBytes 1 "server/other.log" "UTC" then
      "736609cff17dc337c3f3b9ae70fcb009f52c8ec7d070505ce75336b5729cff6e"
    else if preimage = previewBytes 2 "server/server.log" "UTC" then
      "365a6fdf87b2b8fdeca2edf84f84b4e699628076b8e996090e7afc119d416a3d"
    else if preimage = previewBytes 2 "server/server.log" "America/New_York" then
      "359edf4e6ace430c9b52aab171194d1b83abbf0bd251fa4a744263a1d593948a"
    else ""

/-- An event with local time and no zone, in ingest order. -/
def localEvent (seq : UInt64) (source text : String) : LogEvent where
  seq := seq
  ts := asI64 seq
  timestampProvenance := .unresolvedLocal
  activeTimestampBasis := .orderOnly
  unresolvedLocalTimestamp := some text
  level := "error"
  service := none
  host := none
  templateId := 1
  params := []
  traceId := none
  message := "synthetic failure"
  source := source

/-- The previewed application of one zone to one source. -/
def applyZone (revision : Nat) (sources : List String) (zone : String) : TimezoneOp :=
  .apply (.ok ()) .quiet revision
    (sources.map fun source =>
      ⟨source, zone, twoZones.sha256Hex (previewBytes revision source zone)⟩)
    1753833600 .userDeclared

end ContextDesk.LogAnalysis
