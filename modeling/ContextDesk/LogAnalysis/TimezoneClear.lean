import ContextDesk.LogAnalysis.TimezoneRuns

/-!
# When a saved declaration can be cleared

A clear publishes one update for each resolved event of the source through the shared writer of
revisions, which refuses an empty list and an update that leaves the timestamp as it is. So a
declaration that resolved nothing, or one of whose events was resolved to the very number of its
ingest position, stays saved. `Clearable` names the corpora where neither happens, and
`clear_succeeds_iff` says that these are exactly the ones from which a clear does its work.
-/

namespace ContextDesk.LogAnalysis

open Lib List

variable {lib : TimeLibrary} {corpusId : String}

/-- Some event of the source is resolved, none is resolved to its own ingest position, those still
in ingest order show it, and a revision number is left. -/
structure Clearable (db : CorpusDb) (source : String) : Prop where
  resolved : ∃ r ∈ db.events, r.source = source ∧ r.isResolvedLocal = true
  moves : ∀ r ∈ db.events, r.source = source → r.isResolvedLocal = true → r.ts ≠ r.seq
  ordered : ∀ r ∈ db.events, r.source = source →
    r.timestampProvenance = some .unresolvedLocal →
    r.activeTimestampBasis = some .orderOnly → r.ts = r.seq
  revision : db.state.currentRevision + 1 ≤ i64Max

/-- The declaration of the source is gone, the others stay, and every unresolved-local event of
the source is in ingest order. -/
structure Cleared (declarations : Declarations) (source : String) (db : CorpusDb) : Prop where
  declarations : savedDeclarations db.state.currentMetadataJson = .ok (declarations.erase source)
  events : ∀ r ∈ db.events, r.source = source →
    r.timestampProvenance = some .unresolvedLocal →
    r.activeTimestampBasis = some .orderOnly ∧ r.ts = r.seq

/-! ## The metadata of a clear -/

theorem fieldsLen_erase_le (declarations : Declarations) (source : String) :
    Json.fieldsLen (declarationFields (declarations.erase source)) ≤
      Json.fieldsLen (declarationFields declarations) :=
  Json.fieldsLen_sublist ((kerase_sublist source declarations.entries).map _)

theorem textLen_operation {operation : String}
    (h : operation = "timezone_resolution.apply" ∨ operation = "timezone_resolution.clear") :
    Json.textLen operation = 27 := by
  rcases h with rfl | rfl <;> decide

theorem encodedLen_timezoneMetadata {operation : String} (declarations : Declarations)
    (h : operation = "timezone_resolution.apply" ∨ operation = "timezone_resolution.clear") :
    (timezoneMetadata operation declarations).toJson.encodedLen =
      103 + Json.fieldsLen (declarationFields declarations) := by
  have hop := textLen_operation h
  have h1 : Json.textLen "schemaVersion" = 15 := by decide
  have h2 : Json.textLen "operation" = 11 := by decide
  have h3 : Json.textLen "details" = 9 := by decide
  have h4 : Json.textLen declarationsKey = 28 := by decide
  have h5 : (toString ((eventRevisionMetadataSchemaVersion : Nat) : Int)).utf8ByteSize = 1 := by
    decide
  simp only [EventRevisionMetadata.toJson, timezoneMetadata, Json.encodedLen, Json.fieldsLen,
    isEmpty_cons, isEmpty_nil, Bool.false_eq_true, ↓reduceIte, hop, h1, h2, h3, h4, h5]
  omega

theorem validateMetadata_clear {json : Json} {declarations : Declarations} {source : String}
    {d : SourceTimezoneDeclaration} (hsaved : SavedAs json declarations)
    (hd : declarations.lookup source = some d) :
    validateMetadata (timezoneMetadata "timezone_resolution.clear" (declarations.erase source)) =
      .ok (timezoneMetadata "timezone_resolution.clear" (declarations.erase source)).toJson := by
  cases hsaved with
  | empty =>
    rw [AList.lookup_empty] at hd
    cases hd
  | saved operation declarations hop hlen =>
    have hle := fieldsLen_erase_le declarations source
    rw [encodedLen_timezoneMetadata declarations hop] at hlen
    have hname : "timezone_resolution.clear" ≠ "" ∧
        "timezone_resolution.clear".utf8ByteSize ≤ maxOperationBytes ∧
        "timezone_resolution.clear".toList.all isOperationChar = true := by decide
    simp only [validateMetadata, bind_ok, ensure_ok, pure_ok]
    refine ⟨(), rfl, (), hname, (), ?_, trivial⟩
    rw [encodedLen_timezoneMetadata _ (.inr rfl)]
    omega

/-! ## The updates of a clear -/

section

variable {db : CorpusDb} {source : String} {records : List StoredTimestampRecord}

theorem source_of_portable (h : validPortableSource source = true) :
    source ≠ "" ∧ source.utf8ByteSize ≤ maxSourceBytes ∧ '\x00' ∉ source.toList := by
  simp only [validPortableSource, Bool.and_eq_true, Bool.not_eq_true', Bool.or_eq_false_iff] at h
  obtain ⟨⟨⟨⟨⟨⟨⟨hne, hlen⟩, -⟩, -⟩, -⟩, -⟩, hctl⟩, -⟩ := h
  refine ⟨by simpa using hne, ?_, fun hmem => ?_⟩
  · have : source.utf8ByteSize ≤ maxTimezoneSourceBytes := by simpa using hlen
    exact this
  · have := any_eq_false.mp hctl _ hmem
    exact this (by decide)

theorem keys_sourceRecords (hrec : sourceRecords db source = .ok records)
    (hrows : ∀ r ∈ db.events, r.Stored) :
    records.map (fun record => (asI64 record.seq, source)) =
      (rowsOfSource db.events source).map EventRow.key := by
  have hall := collect_ok.mp hrec
  have hmem : ∀ r ∈ rowsOfSource db.events source, r.Stored ∧ r.source = source := fun r hr =>
    ⟨hrows r (mem_rowsOfSource.mp hr).1, (mem_rowsOfSource.mp hr).2⟩
  clear hrec
  generalize rowsOfSource db.events source = rows at hall hmem
  induction hall with
  | nil => rfl
  | @cons r record rows records hok _ ih =>
    obtain ⟨hr, hs⟩ := hmem r mem_cons_self
    rw [map_cons, map_cons, ih fun r' hr' => hmem r' (mem_cons_of_mem _ hr')]
    exact congrArg (· :: _) (key_clearUpdate hok hr hs).symm

theorem distinct_clearUpdates (hrec : sourceRecords db source = .ok records)
    (hrows : ∀ r ∈ db.events, r.Stored) (hd : Distinct EventRow.key db.events) :
    Distinct EventTimestampUpdate.key
      ((records.filter StoredTimestampRecord.isResolvedLocal).map (clearUpdate source)) := by
  have hperm : (rowsOfSource db.events source).Perm (db.events.filter fun r => r.source = source) :=
    perm_insertionSort _ _
  have hnd : (records.map fun record => (asI64 record.seq, source)).Nodup := by
    rw [keys_sourceRecords hrec hrows, (hperm.map EventRow.key).nodup_iff]
    exact hd.sublist filter_sublist
  rw [Distinct, map_map]
  exact hnd.sublist (filter_sublist.map _)

/-- Under `Clearable` the updates of a clear are ready to be published. -/
theorem Clearable.staged (h : Clearable db source) (hd : Distinct EventRow.key db.events)
    (hrows : ∀ r ∈ db.events, r.Stored) (hport : validPortableSource source = true)
    (hrec : sourceRecords db source = .ok records) :
    Staged db.events
      ((records.filter StoredTimestampRecord.isResolvedLocal).map (clearUpdate source)) := by
  refine ⟨hd, distinct_clearUpdates hrec hrows hd, ?_, ?_, ?_⟩
  · intro u hu
    obtain ⟨r, hr, hs, hres, record, -, hok, rfl⟩ := row_of_clearUpdate hrec hrows hu
    obtain ⟨hp, hb⟩ := EventRow.isResolvedLocal_iff.mp hres
    obtain ⟨-, -, -, hts, -, hprov, -, htext⟩ := recordOfRow_ok hok (hrows r hr).seq_le
    refine ⟨r, hr, EventRow.isExact_iff.mpr ⟨EventRow.isExpected_iff.mpr ⟨?_, ?_, hb⟩, ?_, ?_⟩⟩
    · exact key_clearUpdate hok (hrows r hr) hs
    · exact hts.symm
    · show r.timestampProvenance = some record.timestampProvenance
      rw [hprov, hp]
      rfl
    · exact htext.symm
  · intro u hu
    obtain ⟨r, hr, hs, hres, record, -, hok, rfl⟩ := row_of_clearUpdate hrec hrows hu
    obtain ⟨hp, -⟩ := EventRow.isResolvedLocal_iff.mp hres
    obtain ⟨-, hseq, hle, hts, -, hprov, -, htext⟩ := recordOfRow_ok hok (hrows r hr).seq_le
    obtain ⟨⟨value, hvalue, hbounded⟩, -⟩ := (hrows r hr).unresolved hp
    simp only [validateUpdate, bind_ok, ensure_ok]
    refine ⟨(), hle, (), source_of_portable hport, (), ?_, ?_⟩
    · show record.ts ≠ asI64 record.seq
      rw [hts, hseq]
      exact h.moves r hr hs hres
    · simp [EventTimestampUpdate.supportedTransition, clearUpdate, hprov, hp, htext, hvalue,
        hbounded]
  · obtain ⟨r, hr, hs, hres⟩ := h.resolved
    obtain ⟨record, -, -, hmem⟩ := clearUpdate_of_row hrec hrows hr hs hres
    exact ne_nil_of_mem hmem

theorem sourceRecords_accepted (h : ∀ r ∈ db.events, r.source = source → 0 ≤ r.seq) :
    ∃ records, sourceRecords db source = .ok records := by
  have hmem : ∀ r ∈ rowsOfSource db.events source, 0 ≤ r.seq := fun r hr =>
    h r (mem_rowsOfSource.mp hr).1 (mem_rowsOfSource.mp hr).2
  unfold sourceRecords
  generalize rowsOfSource db.events source = rows at hmem
  induction rows with
  | nil => exact ⟨[], rfl⟩
  | cons r rows ih =>
    obtain ⟨record, hok⟩ := recordOfRow_of_nonneg (hmem r mem_cons_self)
    obtain ⟨records, hrec⟩ := ih fun r' hr' => hmem r' (mem_cons_of_mem _ hr')
    refine ⟨record :: records, ?_⟩
    rw [collect, hok, hrec]
    rfl

/-- A published clear leaves every unresolved-local event of the source in ingest order, when
those that were in ingest order showed it. -/
theorem cleared_events {updates : List EventTimestampUpdate}
    (hrows : ∀ r ∈ db.events, r.Stored) (hrec : sourceRecords db source = .ok records)
    (hupd : updates =
      (records.filter StoredTimestampRecord.isResolvedLocal).map (clearUpdate source))
    (hst : Staged db.events updates)
    (hordered : ∀ r ∈ db.events, r.source = source →
      r.timestampProvenance = some .unresolvedLocal →
      r.activeTimestampBasis = some .orderOnly → r.ts = r.seq) :
    ∀ r ∈ publishStaged updates db.events, r.source = source →
      r.timestampProvenance = some .unresolvedLocal →
      r.activeTimestampBasis = some .orderOnly ∧ r.ts = r.seq := by
  intro r' hr' hs hp
  obtain ⟨r, hr, ⟨u, hu, hk, -, rfl⟩ | ⟨hunnamed, rfl⟩⟩ := hst.mem_publish hr'
  · obtain ⟨r₀, hr₀, hs₀, -, record, -, hok, rfl⟩ := row_of_clearUpdate hrec hrows (hupd ▸ hu)
    have hk₀ := key_clearUpdate hok (hrows r₀ hr₀) hs₀
    obtain rfl : r₀ = r := hst.rows.eq_of_key hr₀ hr (hk₀.trans hk.symm)
    exact ⟨rfl, (recordOfRow_ok hok (hrows r₀ hr).seq_le).2.1⟩
  · rcases ((hrows r' hr).unresolved hp).2 with hb | hb
    · exact ⟨hb, hordered r' hr hs hp hb⟩
    · obtain ⟨record, -, hok, hmem⟩ :=
        clearUpdate_of_row hrec hrows hr hs (EventRow.isResolvedLocal_iff.mpr ⟨hp, hb⟩)
      exact absurd (key_clearUpdate hok (hrows r' hr) hs) (hunnamed _ (hupd ▸ hmem))

/-- A clear whose updates were published had something to clear. -/
theorem clearable_of_cleared {updates : List EventTimestampUpdate} {declarations : Declarations}
    {db' : CorpusDb} (hrows : ∀ r ∈ db.events, r.Stored)
    (hrec : sourceRecords db source = .ok records)
    (hupd : updates =
      (records.filter StoredTimestampRecord.isResolvedLocal).map (clearUpdate source))
    (hst : Staged db.events updates) (hev : db'.events = publishStaged updates db.events)
    (hmax : db.state.currentRevision + 1 ≤ i64Max) (h : Cleared declarations source db') :
    Clearable db source := by
  refine ⟨?_, ?_, ?_, hmax⟩
  · obtain ⟨u, hu⟩ := exists_mem_of_ne_nil updates hst.nonempty
    obtain ⟨r, hr, hs, hres, -⟩ := row_of_clearUpdate hrec hrows (hupd ▸ hu)
    exact ⟨r, hr, hs, hres⟩
  · intro r hr hs hres
    obtain ⟨record, -, hok, hmem⟩ := clearUpdate_of_row hrec hrows hr hs hres
    obtain ⟨-, hseq, -, hts, -⟩ := recordOfRow_ok hok (hrows r hr).seq_le
    have hv := hst.valid _ (hupd ▸ hmem)
    simp only [validateUpdate, bind_ok, ensure_ok] at hv
    obtain ⟨_, -, _, -, _, hne, -⟩ := hv
    rw [← hts, ← hseq]
    exact hne
  · intro r hr hs hp hb
    -- an event in ingest order is named by no update, so the published table still has it
    have hunnamed : ∀ u ∈ updates, r.key ≠ u.key := by
      intro u hu hk
      obtain ⟨r₀, hr₀, hs₀, hres, record, -, hok, rfl⟩ := row_of_clearUpdate hrec hrows (hupd ▸ hu)
      have hk₀ := key_clearUpdate hok (hrows r₀ hr₀) hs₀
      obtain rfl : r₀ = r := hst.rows.eq_of_key hr₀ hr (hk₀.trans hk.symm)
      have hb' := (EventRow.isResolvedLocal_iff.mp hres).2
      rw [hb] at hb'
      cases hb'
    have hin : r ∈ db'.events := by
      rw [hev]
      exact mem_map.mpr ⟨r, hr, reviseBy_unnamed hunnamed⟩
    exact (h.events r hin hs hp).2

end

/-- In every reachable corpus, a clear of a saved declaration at the current revision, with
nothing interfering, does what it is for exactly when the source is clearable. -/
theorem clear_succeeds_iff {db : CorpusDb} (h : TimezoneReachable lib corpusId db)
    (hd : Distinct EventRow.key db.events) {declarations : Declarations}
    (hsaved : savedDeclarations db.state.currentMetadataJson = .ok declarations)
    {source : String} {d : SourceTimezoneDeclaration}
    (hlookup : declarations.lookup source = some d) :
    (∃ report db', clearSourceTimezone (.ok ()) .quiet db.state.currentRevision source
        d.appliedRevision db = (.ok report, db') ∧ Cleared declarations source db') ↔
      Clearable db source := by
  obtain ⟨s, hrep, hs⟩ := h.zoned hd
  have hz : db.snapshot.Zoned := hrep.current ▸ hs.1
  have hsound : s.Holds Snapshot.Sound := ⟨hs.1.sound, fun p hp => (hs.2 p hp).sound⟩
  obtain ⟨declarations', hsaved', hdeclared⟩ := hz.saved
  obtain rfl := Except.ok.inj (hsaved.symm.trans hsaved'.savedDeclarations)
  obtain ⟨hport, hseq⟩ := hdeclared source d hlookup
  obtain ⟨records, hrec⟩ := sourceRecords_accepted hseq
  have hplan := planClear_accepted hsaved' hlookup hrec
  rw [clearSourceTimezone, hplan]
  constructor
  · rintro ⟨report, db', hok, hcleared⟩
    have hok : applyEventTimestampRevision .quiet db.state.currentRevision _ _ db =
      (.ok report, db') := hok
    obtain ⟨hst, -, hev, -⟩ := published_snapshot hrep hsound hok
    obtain ⟨e, he⟩ | ⟨_, _, -, hmax, -⟩ := applyEventTimestampRevision_cases .quiet
      db.state.currentRevision _ _ db
    · rw [he] at hok
      cases hok
    · exact clearable_of_cleared hz.rows hrec rfl hst hev hmax hcleared
  · intro hclear
    have hst := hclear.staged hd hz.rows hport hrec
    obtain ⟨report, hok⟩ := hrep.apply_accepted hsound (validateMetadata_clear hsaved' hlookup)
      hst hclear.revision
    obtain ⟨db', hok⟩ := exists_state_of_fst hok
    obtain ⟨-, -, hev, hmeta, hlen⟩ := published_snapshot hrep hsound hok
    refine ⟨report, db', hok, ?_, ?_⟩
    · rw [hmeta]
      exact (SavedAs.saved _ _ (.inr rfl) hlen).savedDeclarations
    · rw [hev]
      exact cleared_events hz.rows hrec rfl hst hclear.ordered

def morningCorpus : CorpusDb :=
  (applyZone 1 ["server/server.log"] "UTC").run twoZones "corpus-779"
    ((TimezoneOp.push (.ok ())
      [(localEvent 0 "server/server.log" "2021-03-05 02:53:53,654", none)]).run twoZones "corpus-779"
      .create)

def serverDeclaration (revision : UInt64) : SourceTimezoneDeclaration :=
  ⟨1, "server/server.log", "UTC", .userDeclared, 1753833600, revision⟩

theorem clear_succeeds_morning :
    morningCorpus.events.map EventRow.ts = [1614912833] ∧
      ∃ report db', clearSourceTimezone (.ok ()) .quiet 2 "server/server.log" 2 morningCorpus =
        (.ok report, db') ∧ Cleared (AList.singleton "server/server.log" (serverDeclaration 2))
          "server/server.log" db' := by
  have hrun : TimezoneReachable twoZones "corpus-779" morningCorpus := .step (.step .create _) _
  refine ⟨by decide, (clear_succeeds_iff hrun (by decide) (d := serverDeclaration 2) rfl rfl).mpr ?_⟩
  exact ⟨by decide, by decide, by decide, by decide⟩

/-- Two sources declared together, the second of which has no local time to resolve. -/
def pairedCorpus : CorpusDb :=
  (applyZone 1 ["server/server.log", "server/other.log"] "UTC").run twoZones "corpus-779"
    ((TimezoneOp.push (.ok ())
      [(localEvent 0 "server/server.log" "2021-03-05 02:53:53,654", none),
        ({ wallEvent 1 5 with source := "server/other.log" }, none)]).run twoZones "corpus-779"
      .create)

/-- An event whose second zone gives it the number of its ingest position. -/
def coincidentCorpus : CorpusDb :=
  (applyZone 2 ["server/server.log"] "UTC").run twoZones "corpus-779"
    ((applyZone 1 ["server/server.log"] "America/New_York").run twoZones "corpus-779"
      ((TimezoneOp.push (.ok ())
        [(localEvent 1614912833 "server/server.log" "2021-03-05 02:53:53,654", none)]).run twoZones
        "corpus-779" .create))

/-- A saved declaration without a resolved event, and one that resolved an event to its own ingest
position, cannot be cleared. -/
theorem clear_refused_for_saved_declaration :
    (TimezoneReachable twoZones "corpus-779" pairedCorpus ∧
      Distinct EventRow.seq pairedCorpus.events ∧ pairedCorpus.state.currentRevision = 2 ∧
      (∃ declarations, savedDeclarations pairedCorpus.state.currentMetadataJson = .ok declarations ∧
        declarations.lookup "server/other.log" =
          some ⟨1, "server/other.log", "UTC", .userDeclared, 1753833600, 2⟩) ∧
      (clearSourceTimezone (.ok ()) .quiet 2 "server/other.log" 2 pairedCorpus).1 =
        .error "event revision requires at least one timestamp update") ∧
    TimezoneReachable twoZones "corpus-779" coincidentCorpus ∧
      Distinct EventRow.seq coincidentCorpus.events ∧
      coincidentCorpus.state.currentRevision = 3 ∧
      (∃ declarations, savedDeclarations coincidentCorpus.state.currentMetadataJson =
        .ok declarations ∧ declarations.lookup "server/server.log" = some (serverDeclaration 3)) ∧
      (clearSourceTimezone (.ok ()) .quiet 3 "server/server.log" 3 coincidentCorpus).1 =
        .error "event revision update must change the timestamp" :=
  ⟨⟨.step (.step .create _) _, by decide, rfl, ⟨_, rfl, rfl⟩, rfl⟩,
    .step (.step (.step .create _) _) _, by decide, rfl, ⟨_, rfl, rfl⟩, rfl⟩

end ContextDesk.LogAnalysis
