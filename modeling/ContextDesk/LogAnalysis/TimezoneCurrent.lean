import ContextDesk.LogAnalysis.TimezoneRuns

/-!
# Resolved timestamps and the zones they were resolved under

`EventRow.TimeCurrent`: a resolved event of a source shows the instant that the saved declaration
of the source gives its retained text, and an order-only event shows its ingest position.

The operations alone do not keep this. An application of a second zone moves only the events that
the new zone resolves, so an event in a fold or gap of the new zone keeps the instant of the old
one; and an append forgets the declarations while resolved events stay resolved.
`TimezoneOp.Consistent` excludes exactly these steps, and under it every run keeps the timestamps
current.
-/

namespace ContextDesk.LogAnalysis

open Lib

variable {lib : TimeLibrary} {corpusId : String}

/-- The timestamp of an unresolved-local event is what its source's saved declaration says. -/
def EventRow.TimeCurrent (lib : TimeLibrary) (declarations : Declarations) (r : EventRow) : Prop :=
  r.timestampProvenance = some .unresolvedLocal →
    (r.activeTimestampBasis = some .resolvedLocal →
      ∃ d resolver provenance, declarations.lookup r.source = some d ∧
        SourceTimezoneResolver.new lib d = .ok resolver ∧
        resolver.resolve lib r.source r.parsedTime = .ok (.resolved r.ts provenance)) ∧
    (r.activeTimestampBasis = some .orderOnly → r.ts = r.seq)

/-- Every event of the corpus has a current timestamp. -/
def TimesCurrent (lib : TimeLibrary) (db : CorpusDb) : Prop :=
  ∃ declarations, savedDeclarations db.state.currentMetadataJson = .ok declarations ∧
    ∀ r ∈ db.events, r.TimeCurrent lib declarations

def Resolves (lib : TimeLibrary) (d : SourceTimezoneDeclaration) (r : EventRow) : Prop :=
  ∃ t p, (⟨d⟩ : SourceTimezoneResolver).resolve lib r.source r.parsedTime = .ok (.resolved t p)

/-- The condition on a step: an append finds no resolved event and brings unresolved-local events
in ingest order only; the zone of each requested source resolves every event of the source that
is resolved now. -/
def TimezoneOp.Consistent (lib : TimeLibrary) (db : CorpusDb) : TimezoneOp → Prop
  | push _ rows =>
    (rows = [] ∨ ∀ r ∈ db.events, r.isResolvedLocal = false) ∧
      ∀ row ∈ rows, row.1.timestampProvenance = .unresolvedLocal →
        row.1.activeTimestampBasis = .orderOnly ∧ row.1.ts = asI64 row.1.seq
  | apply _ _ expectedRevision requests declaredAt basis =>
    ∀ request ∈ requests, ∀ r ∈ db.events, r.source = request.source →
      r.isResolvedLocal = true →
      Resolves lib (request.declaration declaredAt basis (UInt64.ofNat (expectedRevision + 1))) r
  | clear _ _ _ _ _ => True
  | undo _ _ => True

inductive ConsistentRun (lib : TimeLibrary) (corpusId : String) : CorpusDb → Prop where
  | create : ConsistentRun lib corpusId .create
  | step {db : CorpusDb} (h : ConsistentRun lib corpusId db) (op : TimezoneOp)
      (hop : op.Consistent lib db) : ConsistentRun lib corpusId (op.run lib corpusId db)

structure Snapshot.Current (lib : TimeLibrary) (x : Snapshot) : Prop extends x.Zoned where
  current : ∀ declarations, SavedAs x.metadata declarations →
    ∀ r ∈ x.events, r.TimeCurrent lib declarations

theorem SavedAs.unique {json : Json} {declarations declarations' : Declarations}
    (h : SavedAs json declarations) (h' : SavedAs json declarations') :
    declarations = declarations' :=
  Except.ok.inj (h.savedDeclarations.symm.trans h'.savedDeclarations)

/-! ## The steps -/

theorem push_current {db : CorpusDb} {commit : CoreResult Unit}
    {rows : List (LogEvent × Option RedactedOriginal)} (h : db.snapshot.Current lib)
    (hd : Distinct EventRow.key ((RevisionOp.push commit rows).run db).events)
    (hop : (TimezoneOp.push commit rows).Consistent lib db) :
    ((RevisionOp.push commit rows).run db).snapshot.Current lib := by
  refine ⟨push_zoned h.toZoned hd, ?_⟩
  obtain ⟨hold, hnew⟩ := hop
  rcases hold with rfl | hold
  · exact h.current
  rw [RevisionOp.run]
  obtain he | ⟨-, -, appended, happ, he⟩ := pushEventRows_cases commit rows db
  · rw [he]
    exact h.current
  · rw [he]
    intro declarations _ r hr hp
    have hmem : r ∈ appended := hr
    rw [happ, List.mem_append, List.mem_map] at hmem
    obtain ⟨before, hsaved, -⟩ := h.saved
    rcases hmem with hr | ⟨row, hrow, rfl⟩
    · refine ⟨fun hb => ?_, (h.current before hsaved r hr hp).2⟩
      have hres := EventRow.isResolvedLocal_iff.mpr ⟨hp, hb⟩
      rw [hold r hr] at hres
      cases hres
    · obtain ⟨hbasis, hts⟩ := hnew row hrow (Option.some.inj hp)
      refine ⟨fun hb => ?_, fun _ => hts⟩
      rw [show (EventRow.ofEvent row.1 row.2).activeTimestampBasis =
        some row.1.activeTimestampBasis from rfl, hbasis] at hb
      cases hb

variable {d : SourceTimezoneDeclaration}

theorem RequestApplied.row_of_update {db : CorpusDb} {us : List EventTimestampUpdate}
    (h : RequestApplied lib db d us) (hrows : ∀ r ∈ db.events, r.Stored)
    {u : EventTimestampUpdate} (hu : u ∈ us) :
    ∃ r ∈ db.events, r.source = d.source ∧ r.key = u.key ∧
      u.revisedActiveTimestampBasis = .resolvedLocal ∧
      ∃ p, (⟨d⟩ : SourceTimezoneResolver).resolve lib d.source r.parsedTime =
        .ok (.resolved u.revisedTs p) := by
  obtain ⟨records, hrec, hupd⟩ := h.updates
  obtain ⟨record, hmem, t, p, hres, -, rfl⟩ := (mem_resolutionUpdates hupd).mp hu
  obtain ⟨r, hr, hs, hok⟩ := (mem_sourceRecords hrec).2 record hmem
  obtain ⟨-, hseq, -, -, hparsed, -⟩ := recordOfRow_ok hok (hrows r hr).seq_le
  refine ⟨r, hr, hs, ?_, rfl, p, hparsed ▸ hres⟩
  show (r.seq, r.source) = (asI64 record.seq, d.source)
  rw [hseq, hs]

theorem RequestApplied.update_of_row {db : CorpusDb} {us : List EventTimestampUpdate}
    (h : RequestApplied lib db d us) (hrows : ∀ r ∈ db.events, r.Stored) {r : EventRow}
    (hr : r ∈ db.events) (hs : r.source = d.source) {t : Int} {p : TimestampResolutionProvenance}
    (hres : (⟨d⟩ : SourceTimezoneResolver).resolve lib r.source r.parsedTime =
      .ok (.resolved t p)) : r.ts = t ∨ ∃ u ∈ us, r.key = u.key := by
  obtain ⟨records, hrec, hupd⟩ := h.updates
  obtain ⟨record, hmem, hok⟩ := (mem_sourceRecords hrec).1 r hr hs
  obtain ⟨-, hseq, -, hts, hparsed, -⟩ := recordOfRow_ok hok (hrows r hr).seq_le
  by_cases hstay : record.ts = t ∧ record.activeTimestampBasis = .resolvedLocal
  · exact .inl (hts ▸ hstay.1)
  · rw [← hparsed, hs] at hres
    refine .inr ⟨resolvedUpdate d.source record t,
      (mem_resolutionUpdates hupd).mpr ⟨record, hmem, t, p, hres, hstay, rfl⟩, ?_⟩
    show (r.seq, r.source) = (asI64 record.seq, d.source)
    rw [hseq, hs]

theorem EventRow.resolve_revise {r : EventRow} {u : EventTimestampUpdate} {t : Int}
    {p : TimestampResolutionProvenance} (hr : r.Stored)
    (hp : r.timestampProvenance = some .unresolvedLocal) (hs : r.source = d.source)
    (hu : u.revisedActiveTimestampBasis = .resolvedLocal)
    (hres : (⟨d⟩ : SourceTimezoneResolver).resolve lib d.source r.parsedTime =
      .ok (.resolved t p)) :
    (⟨d⟩ : SourceTimezoneResolver).resolve lib r.source (r.revise u).parsedTime =
      .ok (.resolved t p) := by
  obtain ⟨⟨text, htext, -⟩, hb⟩ := hr.unresolved hp
  have hprov : r.parsedTime.timestampProvenance = .unresolvedLocal := by simp [parsedTime, hp]
  have hbasis : r.parsedTime.activeTimestampBasis = .orderOnly ∨
      r.parsedTime.activeTimestampBasis = .resolvedLocal := by
    rcases hb with hb | hb <;> simp [parsedTime, hb]
  have hbefore := SourceTimezoneResolver.resolve_unresolvedLocal lib ⟨d⟩ hprov hbasis htext
  have hafter := SourceTimezoneResolver.resolve_unresolvedLocal lib ⟨d⟩
    (p := (r.revise u).parsedTime) hprov (.inr hu) htext
  rw [hs]
  exact hafter.trans (hbefore.symm.trans hres)

section

variable {db : CorpusDb} {declarations : Declarations} {updates : List EventTimestampUpdate}

/-- An application whose zones resolve the resolved events keeps every timestamp current. -/
theorem apply_current {requests : List SourceTimezoneApplyRequest}
    {resolved : List (List EventTimestampUpdate)}
    {make : SourceTimezoneApplyRequest → SourceTimezoneDeclaration}
    (hmake : ∀ request, (make request).source = request.source)
    (hrows : ∀ r ∈ db.events, r.Stored) (hst : Staged db.events resolved.flatten)
    (hnd : (requests.map SourceTimezoneApplyRequest.source).Nodup)
    (hall : List.Forall₂ (fun request us => RequestApplied lib db (make request) us)
      requests resolved)
    (hcurrent : ∀ r ∈ db.events, r.TimeCurrent lib declarations)
    (hop : ∀ request ∈ requests, ∀ r ∈ db.events, r.source = request.source →
      r.isResolvedLocal = true → Resolves lib (make request) r) :
    ∀ r ∈ publishStaged resolved.flatten db.events,
      r.TimeCurrent lib (saveAll make requests declarations) := by
  intro r' hr' hp
  obtain ⟨r, hr, ⟨u, hu, hk, -, rfl⟩ | ⟨hunnamed, rfl⟩⟩ := hst.mem_publish hr'
  · -- a moved event shows the instant of the zone that moved it
    obtain ⟨us, hus, hmem⟩ := List.mem_flatten.mp hu
    obtain ⟨request, hreq, happ⟩ := exists_mem_left hall hus
    obtain ⟨r₀, hr₀, hs, hk₀, hbasis, p, hres⟩ := happ.row_of_update hrows hmem
    obtain rfl : r₀ = r := hst.rows.eq_of_key hr₀ hr (hk₀.trans hk.symm)
    refine ⟨fun _ => ⟨make request, ⟨make request⟩, p, ?_, happ.resolver, ?_⟩, fun hb => ?_⟩
    · show (saveAll make requests declarations).lookup r₀.source = _
      rw [hs, hmake]
      exact lookup_saveAll_of_mem hnd hreq
    · exact EventRow.resolve_revise (r := r₀) (hrows r₀ hr) hp hs hbasis hres
    · rw [show (r₀.revise u).activeTimestampBasis = some u.revisedActiveTimestampBasis from rfl,
        hbasis] at hb
      cases hb
  · refine ⟨fun hb => ?_, (hcurrent r' hr hp).2⟩
    by_cases hreq : ∃ request ∈ requests, request.source = r'.source
    · -- a resolved event that stays is already where the new zone puts it
      obtain ⟨request, hmem, hs⟩ := hreq
      obtain ⟨us, hus, happ⟩ := exists_mem_right hall hmem
      obtain ⟨t, p, hres⟩ := hop request hmem r' hr hs.symm
        (EventRow.isResolvedLocal_iff.mpr ⟨hp, hb⟩)
      obtain rfl | ⟨u, hu, hk⟩ :=
        happ.update_of_row hrows hr (hs.symm.trans (hmake request).symm) hres
      · refine ⟨make request, ⟨make request⟩, p, ?_, happ.resolver, hres⟩
        rw [← hs]
        exact lookup_saveAll_of_mem hnd hmem
      · exact absurd hk (hunnamed u (List.mem_flatten.mpr ⟨us, hus, hu⟩))
    · obtain ⟨d, resolver, p, hlookup, hrest⟩ := (hcurrent r' hr hp).1 hb
      refine ⟨d, resolver, p, ?_, hrest⟩
      rw [lookup_saveAll_of_not_mem (by simpa using hreq)]
      exact hlookup

theorem clear_current {source : String} {records : List StoredTimestampRecord}
    (hrows : ∀ r ∈ db.events, r.Stored) (hrec : sourceRecords db source = .ok records)
    (hupd : updates =
      (records.filter StoredTimestampRecord.isResolvedLocal).map (clearUpdate source))
    (hst : Staged db.events updates)
    (hcurrent : ∀ r ∈ db.events, r.TimeCurrent lib declarations) :
    ∀ r ∈ publishStaged updates db.events, r.TimeCurrent lib (declarations.erase source) := by
  intro r' hr' hp
  obtain ⟨r, hr, ⟨u, hu, hk, -, rfl⟩ | ⟨hunnamed, rfl⟩⟩ := hst.mem_publish hr'
  · obtain ⟨r₀, hr₀, hs, -, record, -, hok, rfl⟩ := row_of_clearUpdate hrec hrows (hupd ▸ hu)
    have hk₀ := key_clearUpdate hok (hrows r₀ hr₀) hs
    obtain rfl : r₀ = r := hst.rows.eq_of_key hr₀ hr (hk₀.trans hk.symm)
    refine ⟨fun hb => ?_, fun _ => ?_⟩
    · cases hb
    · exact (recordOfRow_ok hok (hrows r₀ hr).seq_le).2.1
  · refine ⟨fun hb => ?_, (hcurrent r' hr hp).2⟩
    have hres := EventRow.isResolvedLocal_iff.mpr ⟨hp, hb⟩
    by_cases hs : r'.source = source
    · obtain ⟨record, -, hok, hmem⟩ := clearUpdate_of_row hrec hrows hr hs hres
      exact absurd (key_clearUpdate hok (hrows r' hr) hs) (hunnamed _ (hupd ▸ hmem))
    · obtain ⟨d, resolver, p, hlookup, hrest⟩ := (hcurrent r' hr hp).1 hb
      refine ⟨d, resolver, p, ?_, hrest⟩
      rw [AList.lookup_erase_ne hs]
      exact hlookup

end

/-- Publishing a plan of a consistent call keeps the snapshot current. -/
theorem TimezoneOp.Plans.current {op : TimezoneOp} {db db' : CorpusDb} {s : UndoStore Snapshot}
    {env : RevisionEnv} {r : Nat} {metadata : EventRevisionMetadata}
    {updates : List EventTimestampUpdate} {report : EventRevisionReport}
    (hplan : op.Plans lib corpusId db metadata updates) (hop : op.Consistent lib db)
    (h : Represents db s) (hs : s.Holds (Snapshot.Current lib))
    (hok : applyEventTimestampRevision env r metadata updates db = (.ok report, db')) :
    db'.snapshot.Current lib := by
  have hc : db.snapshot.Current lib := h.current ▸ hs.1
  have hzoned : s.Holds Snapshot.Zoned := ⟨hs.1.toZoned, fun p hp => (hs.2 p hp).toZoned⟩
  obtain ⟨declarations, hsaved, -⟩ := hc.saved
  have hcurrent := hc.current declarations hsaved
  obtain ⟨hst, -, hev, hmeta, hlen⟩ :=
    published_snapshot h ⟨hs.1.sound, fun p hp => (hs.2 p hp).sound⟩ hok
  refine ⟨hplan.zoned h hzoned hok, ?_⟩
  intro declarations' hsaved'
  have hsaved' : SavedAs db'.state.currentMetadataJson declarations' := hsaved'
  show ∀ r ∈ db'.events, _
  rw [hmeta] at hsaved'
  rw [hev]
  cases hplan with
  | apply hp =>
    obtain ⟨hnd, rfl, resolved, rfl, hall⟩ := planApply_ok hsaved hp
    rw [← (SavedAs.saved _ _ (.inl rfl) hlen).unique hsaved']
    exact apply_current (fun _ => rfl) hc.rows hst hnd hall hcurrent hop
  | clear hp =>
    obtain ⟨-, rfl, records, hrec, hupd⟩ := planClear_ok hsaved hp
    rw [← (SavedAs.saved _ _ (.inr rfl) hlen).unique hsaved']
    exact clear_current hc.rows hrec hupd hst hcurrent

/-! ## Runs -/

theorem current_create :
    ∃ s : UndoStore Snapshot, Represents .create s ∧ s.Holds (Snapshot.Current lib) := by
  obtain ⟨s, hrep, hs⟩ := zoned_create
  have hev : s.current.events = [] := by rw [← hrep.current]; rfl
  refine ⟨s, hrep, ⟨hs.1, fun _ _ r hr => ?_⟩, fun p hp => ?_⟩
  · rw [hev] at hr
    cases hr
  · have hprev := hrep.previous
    rw [hp] at hprev
    obtain ⟨_, hno, -⟩ := hprev.revision
    cases hno

/-- In every run whose steps meet the condition, every state reached has current timestamps. -/
theorem resolved_times_current {db : CorpusDb} (h : ConsistentRun lib corpusId db)
    (hd : Distinct EventRow.key db.events) : TimesCurrent lib db := by
  have hstore : ∃ s : UndoStore Snapshot, Represents db s ∧ s.Holds (Snapshot.Current lib) := by
    induction h with
    | create => exact current_create
    | @step db _ op hop ih =>
      obtain ⟨s, hrep, hs⟩ := ih (List.Nodup.sublist (op.keys_sublist db) hd)
      have hc : db.snapshot.Current lib := hrep.current ▸ hs.1
      refine op.run_holds (fun _ hx => hx.sound) hrep hs ?_ ?_
      · rintro commit rows rfl
        exact push_current hc hd hop
      · intro env r metadata updates report db' hplan hok
        exact hplan.current hop hrep hs hok
  obtain ⟨s, hrep, hs⟩ := hstore
  have hc : db.snapshot.Current lib := hrep.current ▸ hs.1
  obtain ⟨declarations, hsaved, -⟩ := hc.saved
  exact ⟨declarations, hsaved.savedDeclarations, hc.current declarations hsaved⟩

/-- Two events of one source, the second of which New York's fold leaves undecided. -/
def foldCorpus : CorpusDb :=
  (TimezoneOp.push (.ok ()) [(localEvent 0 "server/server.log" "2021-03-05 02:53:53,654", none),
    (localEvent 1 "server/server.log" "2021-11-07 01:30:00,000", none)]).run twoZones "corpus-779"
    .create

def utcCorpus : CorpusDb :=
  (applyZone 1 ["server/server.log"] "UTC").run twoZones "corpus-779" foldCorpus

def redeclaredCorpus : CorpusDb :=
  (applyZone 2 ["server/server.log"] "America/New_York").run twoZones "corpus-779" utcCorpus

def extendedCorpus : CorpusDb :=
  (TimezoneOp.push (.ok ()) [(localEvent 2 "server/server.log" "2021-03-05 02:53:53,654", none)]).run
    twoZones "corpus-779" utcCorpus

/-- Reading the fold corpus as UTC meets the condition: nothing was resolved before. -/
theorem resolved_times_current_utc :
    utcCorpus.events.map EventRow.ts = [1614912833, 1636248600] ∧ TimesCurrent twoZones utcCorpus := by
  have hrun : ConsistentRun twoZones "corpus-779" utcCorpus := by
    have hfold : ConsistentRun twoZones "corpus-779" foldCorpus := by
      refine .step .create _ ?_
      refine ⟨.inr fun r hr => ?_, by decide⟩
      cases hr
    refine .step hfold _ ?_
    intro request _ r hr _ hres
    have hnone : ∀ r ∈ foldCorpus.events, r.isResolvedLocal = false := by decide
    rw [hnone r hr] at hres
    cases hres
  exact ⟨by decide, resolved_times_current hrun (by decide)⟩

/-- The row of the event in the fold, resolved as UTC. -/
def foldRow : EventRow :=
  .ofEvent
    { localEvent 1 "server/server.log" "2021-11-07 01:30:00,000" with
      ts := 1636248600, activeTimestampBasis := .resolvedLocal } none

/-- A second zone leaves an event at the instant of the first, and an append leaves resolved
events without a declaration. -/
theorem times_stale_after_second_zone_or_append :
    (TimezoneReachable twoZones "corpus-779" redeclaredCorpus ∧
      Distinct EventRow.seq redeclaredCorpus.events ∧ ¬ TimesCurrent twoZones redeclaredCorpus) ∧
    TimezoneReachable twoZones "corpus-779" extendedCorpus ∧
      Distinct EventRow.seq extendedCorpus.events ∧ ¬ TimesCurrent twoZones extendedCorpus := by
  refine ⟨⟨.step (.step (.step .create _) _) _, by decide, ?_⟩,
    .step (.step (.step .create _) _) _, by decide, ?_⟩
  · rintro ⟨declarations, hs, hall⟩
    have hrow : foldRow ∈ redeclaredCorpus.events := by decide
    obtain ⟨d, resolver, p, hlookup, hnew, hres⟩ := (hall foldRow hrow rfl).1 rfl
    have hd : (savedDeclarations redeclaredCorpus.state.currentMetadataJson).map
        (·.lookup "server/server.log") = .ok (some ⟨1, "server/server.log", "America/New_York",
          .userDeclared, 1753833600, 3⟩) := rfl
    rw [hs] at hd
    obtain rfl := Option.some.inj (hlookup.symm.trans (Except.ok.inj hd))
    obtain rfl := (SourceTimezoneResolver.new_ok hnew).1
    cases hres
  · rintro ⟨declarations, hs, hall⟩
    have hrow : foldRow ∈ extendedCorpus.events := by decide
    obtain ⟨d, resolver, p, hlookup, -⟩ := (hall foldRow hrow rfl).1 rfl
    have hd : (savedDeclarations extendedCorpus.state.currentMetadataJson).map
        (·.lookup "server/server.log") = .ok none := rfl
    rw [hs] at hd
    cases hlookup.symm.trans (Except.ok.inj hd)

end ContextDesk.LogAnalysis
