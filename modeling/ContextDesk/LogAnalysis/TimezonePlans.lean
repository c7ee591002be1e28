import ContextDesk.LogAnalysis.TimezoneApplication
import ContextDesk.LogAnalysis.RevisionRuns

/-!
# What an application and a clear plan

The declarations read back from the metadata are the ones written to it (`SavedAs`). From that,
`planApply_ok` and `planClear_ok` say once what an accepted plan contains: for every requested
source its new declaration and the updates of its records, for a cleared source one update for
each resolved record. The later invariants are read off these two lemmas.
-/

namespace ContextDesk.LogAnalysis

open Lib List

/-! ## Stored form -/

@[simp] theorem TimezoneDeclarationBasis.fromJson_toJson (b : TimezoneDeclarationBasis) :
    fromJson b.toJson = some b := by
  cases b <;> rfl

theorem SourceTimezoneDeclaration.fromJson_toJson (d : SourceTimezoneDeclaration) :
    fromJson d.toJson = some d := by
  have hv := d.schemaVersion.toNat_lt
  have ha := d.appliedRevision.toNat_lt
  have hlo := d.declaredAt.le_toInt
  have hhi := d.declaredAt.toInt_lt
  have hfields : fromJson d.toJson = (do
      guard (d.schemaVersion.toNat < 2 ^ 32)
      let basis ← TimezoneDeclarationBasis.fromJson d.basis.toJson
      guard (-2 ^ 63 ≤ d.declaredAt.toInt ∧ d.declaredAt.toInt < 2 ^ 63)
      guard (d.appliedRevision.toNat < 2 ^ 64)
      pure
        { schemaVersion := UInt32.ofNat d.schemaVersion.toNat
          source := d.source
          ianaTimezone := d.ianaTimezone
          basis
          declaredAt := Int64.ofInt d.declaredAt.toInt
          appliedRevision := UInt64.ofNat d.appliedRevision.toNat }) := rfl
  rw [hfields, guard, if_pos hv, guard, if_pos ⟨hlo, hhi⟩, guard, if_pos ha]
  simp

theorem dedupKeys_eq_self {α : Type} {β : α → Type} [DecidableEq α] {l : List (Sigma β)}
    (h : l.NodupKeys) : l.dedupKeys = l := by
  induction l with
  | nil => rfl
  | cons e l ih =>
    obtain ⟨hnot, hl⟩ := nodupKeys_cons.mp h
    rw [dedupKeys_cons, ih hl, kinsert_def, kerase_of_notMem_keys hnot]

theorem declarationsFromJson_declarationFields (declarations : Declarations) :
    declarationsFromJson (.obj (declarationFields declarations)) = some declarations := by
  have hmap : (declarationFields declarations).mapM (fun field => do
      let declaration ← SourceTimezoneDeclaration.fromJson field.2
      pure (⟨field.1, declaration⟩ : Sigma fun _ : String => SourceTimezoneDeclaration)) =
      some declarations.entries := by
    unfold declarationFields
    generalize declarations.entries = entries
    induction entries with
    | nil => rfl
    | cons e l ih =>
      rw [map_cons, mapM_cons, ih, SourceTimezoneDeclaration.fromJson_toJson]
      rfl
  rw [declarationsFromJson, hmap]
  have hself : declarations.entries.toAList = declarations :=
    AList.ext (dedupKeys_eq_self declarations.nodupKeys)
  exact congrArg some hself

def timezoneMetadata (operation : String) (declarations : Declarations) :
    EventRevisionMetadata where
  schemaVersion := eventRevisionMetadataSchemaVersion
  operation := operation
  details := .obj [(declarationsKey, .obj (declarationFields declarations))]

/-- The stored metadata is that of a corpus on which only appends and timezone operations
published, and it saves these declarations. -/
inductive SavedAs : Json → Declarations → Prop where
  | empty : SavedAs emptyMetadata ∅
  | saved (operation : String) (declarations : Declarations)
      (hop : operation = "timezone_resolution.apply" ∨ operation = "timezone_resolution.clear")
      (hlen : (timezoneMetadata operation declarations).toJson.encodedLen ≤
        maxEventRevisionMetadataBytes) :
      SavedAs (timezoneMetadata operation declarations).toJson declarations

variable {declarations : Declarations}

theorem SavedAs.storedMetadata {json : Json} (h : SavedAs json declarations) :
    ∃ metadata, LogAnalysis.storedMetadata json = .ok metadata ∧
      declarationsFromDetails metadata.details = .ok declarations ∧
      ∀ declarations' operation, metadataWithDeclarations metadata declarations' operation =
        .ok (timezoneMetadata operation declarations') := by
  cases h with
  | empty => exact ⟨_, rfl, rfl, fun _ _ => rfl⟩
  | saved operation declarations hop hlen =>
    refine ⟨timezoneMetadata operation declarations, rfl, ?_, fun _ _ => rfl⟩
    show require (declarationsFromJson (.obj (declarationFields declarations))) _ = _
    rw [declarationsFromJson_declarationFields]
    rfl

theorem SavedAs.savedDeclarations {json : Json} {declarations : Declarations}
    (h : SavedAs json declarations) : savedDeclarations json = .ok declarations := by
  obtain ⟨metadata, hm, hd, -⟩ := h.storedMetadata
  simp only [LogAnalysis.savedDeclarations, bind_ok]
  exact ⟨metadata, hm, hd⟩

/-! ## Records and rows -/

/-- What every append and revision leaves of a row: a sequence that fits the column, and bounded
text behind every unresolved-local event, read by ingest order or by a resolved instant. -/
structure EventRow.Stored (r : EventRow) : Prop where
  seq_le : r.seq ≤ i64Max
  unresolved : r.timestampProvenance = some .unresolvedLocal →
    (∃ value, r.unresolvedLocalTimestamp = some value ∧ boundedLocalText value = true) ∧
      (r.activeTimestampBasis = some .orderOnly ∨ r.activeTimestampBasis = some .resolvedLocal)

/-- The row is an event that a declaration resolved. -/
def EventRow.isResolvedLocal (r : EventRow) : Bool :=
  r.timestampProvenance = some .unresolvedLocal ∧ r.activeTimestampBasis = some .resolvedLocal

def EventRow.parsedTime (r : EventRow) : ParsedTime where
  ts := some r.ts
  timestampProvenance := r.timestampProvenance.getD .legacyUnknown
  activeTimestampBasis := r.activeTimestampBasis.getD .legacyUnknown
  unresolvedLocalTimestamp := r.unresolvedLocalTimestamp

variable {r : EventRow}

theorem recordOfRow_ok {record : StoredTimestampRecord} (h : recordOfRow r = .ok record)
    (hr : r.seq ≤ i64Max) :
    0 ≤ r.seq ∧ asI64 record.seq = r.seq ∧ record.seq.toNat ≤ i64Max ∧ record.ts = r.ts ∧
      parsedRecord record = r.parsedTime ∧
      record.timestampProvenance = r.timestampProvenance.getD .legacyUnknown ∧
      record.activeTimestampBasis = r.activeTimestampBasis.getD .legacyUnknown ∧
      record.unresolvedLocalTimestamp = r.unresolvedLocalTimestamp := by
  simp only [recordOfRow, bind_ok, require_ok, pure_ok] at h
  obtain ⟨seq, hseq, rfl⟩ := h
  obtain ⟨hs, hle⟩ := tryU64_eq_some hr hseq
  refine ⟨?_, hs, hle, rfl, rfl, rfl, rfl, rfl⟩
  unfold tryU64 at hseq
  split at hseq
  · assumption
  · cases hseq

theorem recordOfRow_of_nonneg (h : 0 ≤ r.seq) : ∃ record, recordOfRow r = .ok record := by
  simp only [recordOfRow, exists_bind_ok, require_ok]
  exact ⟨_, by rw [tryU64, if_pos h], exists_pure_ok⟩

theorem mem_rowsOfSource {events : List EventRow} {source : String} :
    r ∈ rowsOfSource events source ↔ r ∈ events ∧ r.source = source := by
  rw [rowsOfSource, mem_insertionSort, mem_filter, decide_eq_true_eq]

theorem mem_sourceRecords {db : CorpusDb} {source : String} {records : List StoredTimestampRecord}
    (h : sourceRecords db source = .ok records) :
    (∀ r ∈ db.events, r.source = source → ∃ record ∈ records, recordOfRow r = .ok record) ∧
      ∀ record ∈ records, ∃ r ∈ db.events, r.source = source ∧ recordOfRow r = .ok record := by
  have hall := collect_ok.mp h
  constructor
  · intro r hr hs
    exact exists_mem_right hall (mem_rowsOfSource.mpr ⟨hr, hs⟩)
  · intro record hrec
    obtain ⟨r, hr, hok⟩ := exists_mem_left hall hrec
    obtain ⟨hr, hs⟩ := mem_rowsOfSource.mp hr
    exact ⟨r, hr, hs, hok⟩

/-! ## Applications -/

section

variable {lib : TimeLibrary}

theorem SourceTimezoneResolver.new_ok {d : SourceTimezoneDeclaration}
    {resolver : SourceTimezoneResolver} (h : SourceTimezoneResolver.new lib d = .ok resolver) :
    resolver = ⟨d⟩ ∧ validPortableSource d.source = true := by
  simp only [new, validateDeclaration, bind_ok, ensure_ok, pure_ok] at h
  obtain ⟨_, ⟨_, -, _, hs, -⟩, _, -, rfl⟩ := h
  exact ⟨rfl, hs⟩

/-- Resolution of an unresolved-local event reads its source and its text only. -/
theorem SourceTimezoneResolver.resolve_unresolvedLocal (lib : TimeLibrary)
    (resolver : SourceTimezoneResolver) {p : ParsedTime} {text : String}
    (hp : p.timestampProvenance = .unresolvedLocal)
    (hb : p.activeTimestampBasis = .orderOnly ∨ p.activeTimestampBasis = .resolvedLocal)
    (ht : p.unresolvedLocalTimestamp = some text) :
    resolver.resolve lib resolver.declaration.source p =
      .ok (resolver.resolveLocalText lib text) := by
  unfold resolve
  rw [if_neg (by simp), if_neg (by rcases hb with hb | hb <;> simp [hb]), if_neg (by simp [hp, hb]),
    ht]

/-- The updates of a source, one for each record that the resolver moves. -/
theorem mem_resolutionUpdates {resolver : SourceTimezoneResolver} {source : String}
    {records : List StoredTimestampRecord} {us : List EventTimestampUpdate}
    (h : resolutionUpdates lib resolver source records = .ok us) {u : EventTimestampUpdate} :
    u ∈ us ↔ ∃ record ∈ records, ∃ t p,
      resolver.resolve lib source (parsedRecord record) = .ok (.resolved t p) ∧
      ¬ (record.ts = t ∧ record.activeTimestampBasis = .resolvedLocal) ∧
      u = resolvedUpdate source record t := by
  induction records generalizing us with
  | nil =>
    obtain rfl := Except.ok.inj h
    simp
  | cons record rest ih =>
    simp only [resolutionUpdates, bind_ok] at h
    obtain ⟨resolution, hres, vs, hvs, h⟩ := h
    simp only [mem_cons, exists_eq_or_imp, hres, ← ih hvs]
    cases resolution with
    | existingWallClock t =>
      obtain rfl := pure_ok.mp h
      simp
    | unresolved reason =>
      obtain rfl := pure_ok.mp h
      simp
    | resolved t p =>
      simp only at h
      by_cases hskip : record.ts = t ∧ record.activeTimestampBasis = .resolvedLocal
      · rw [if_pos hskip] at h
        obtain rfl := pure_ok.mp h
        simp [hskip]
      · rw [if_neg hskip] at h
        obtain rfl := pure_ok.mp h
        rw [mem_cons]
        refine or_congr_left ⟨?_, ?_⟩
        · rintro rfl
          exact ⟨t, p, rfl, hskip, rfl⟩
        · rintro ⟨t', p', he, -, rfl⟩
          cases he
          rfl

def SourceTimezoneApplyRequest.declaration (request : SourceTimezoneApplyRequest)
    (declaredAt : Int64) (basis : TimezoneDeclarationBasis) (appliedRevision : UInt64) :
    SourceTimezoneDeclaration where
  schemaVersion := timezoneDeclarationSchemaVersion
  source := request.source
  ianaTimezone := request.ianaTimezone
  basis := basis
  declaredAt := declaredAt
  appliedRevision := appliedRevision

/-- A request was accepted, with these updates. -/
structure RequestApplied (lib : TimeLibrary) (db : CorpusDb) (d : SourceTimezoneDeclaration)
    (us : List EventTimestampUpdate) : Prop where
  resolver : SourceTimezoneResolver.new lib d = .ok ⟨d⟩
  updates : ∃ records, sourceRecords db d.source = .ok records ∧
    resolutionUpdates lib ⟨d⟩ d.source records = .ok us

variable {requests : List SourceTimezoneApplyRequest}

theorem distinctSources_ok {seen : List String} {u : Unit}
    (h : distinctSources requests seen = .ok u) :
    (requests.map SourceTimezoneApplyRequest.source).Nodup ∧
      ∀ request ∈ requests, request.source ∉ seen := by
  induction requests generalizing seen with
  | nil => simp
  | cons request rest ih =>
    simp only [distinctSources, bind_ok, ensure_ok] at h
    obtain ⟨_, hnew, h⟩ := h
    obtain ⟨hnd, hseen⟩ := ih h
    refine ⟨?_, ?_⟩
    · rw [map_cons, nodup_cons]
      refine ⟨fun hmem => ?_, hnd⟩
      obtain ⟨other, hother, he⟩ := mem_map.mp hmem
      exact hseen other hother (he ▸ mem_cons_self)
    · intro other hother
      rcases mem_cons.mp hother with rfl | hother
      · exact hnew
      · exact fun hmem => hseen other hother (mem_cons_of_mem _ hmem)

/-- Saving the requested declarations over the old ones. -/
def saveAll (make : SourceTimezoneApplyRequest → SourceTimezoneDeclaration)
    (requests : List SourceTimezoneApplyRequest) (declarations : Declarations) : Declarations :=
  requests.foldl (fun saved request => saved.insert request.source (make request)) declarations

variable {declarations : Declarations}

theorem lookup_saveAll_of_not_mem {make : SourceTimezoneApplyRequest → SourceTimezoneDeclaration}
    {source : String} (h : source ∉ requests.map SourceTimezoneApplyRequest.source) :
    (saveAll make requests declarations).lookup source = declarations.lookup source := by
  induction requests generalizing declarations with
  | nil => rfl
  | cons request rest ih =>
    rw [map_cons, mem_cons, not_or] at h
    rw [saveAll, foldl_cons]
    exact (ih h.2).trans (AList.lookup_insert_ne h.1)

theorem lookup_saveAll_of_mem {make : SourceTimezoneApplyRequest → SourceTimezoneDeclaration}
    (hnd : (requests.map SourceTimezoneApplyRequest.source).Nodup)
    {request : SourceTimezoneApplyRequest} (h : request ∈ requests) :
    (saveAll make requests declarations).lookup request.source = some (make request) := by
  induction requests generalizing declarations with
  | nil => cases h
  | cons first rest ih =>
    rw [map_cons, nodup_cons] at hnd
    rw [saveAll, foldl_cons]
    rcases mem_cons.mp h with rfl | h
    · exact (lookup_saveAll_of_not_mem hnd.1).trans (AList.lookup_insert _)
    · exact ih hnd.2 h

theorem applyRequests_ok {opened : CoreResult Unit} {corpusId : String} {expectedRevision : Nat}
    {declaredAt : Int64} {basis : TimezoneDeclarationBasis} {appliedRevision : UInt64}
    {db : CorpusDb} {declarations' : Declarations} {updates updates' : List EventTimestampUpdate}
    (h : applyRequests lib opened corpusId expectedRevision declaredAt basis appliedRevision db
      requests declarations updates = .ok (declarations', updates')) :
    declarations' =
        saveAll (·.declaration declaredAt basis appliedRevision) requests declarations ∧
      ∃ resolved, updates' = updates ++ resolved.flatten ∧
        Forall₂ (fun request us =>
          RequestApplied lib db (request.declaration declaredAt basis appliedRevision) us)
          requests resolved := by
  induction requests generalizing declarations updates with
  | nil =>
    obtain ⟨rfl, rfl⟩ := Prod.mk.inj (Except.ok.inj h)
    exact ⟨rfl, [], by simp, .nil⟩
  | cons request rest ih =>
    simp only [applyRequests, bind_ok, ensure_ok] at h
    obtain ⟨resolver, hres, preview, -, _, -, records, hrec, us, hus, h⟩ := h
    obtain ⟨rfl, -⟩ := SourceTimezoneResolver.new_ok hres
    obtain ⟨hsaved, resolved, hupd, hall⟩ := ih h
    refine ⟨hsaved, us :: resolved, ?_, .cons ⟨hres, records, hrec, hus⟩ hall⟩
    rw [hupd, flatten_cons, append_assoc]

/-- What an accepted application publishes. -/
theorem planApply_ok {opened : CoreResult Unit} {corpusId : String} {expectedRevision : Nat}
    {declaredAt : Int64} {basis : TimezoneDeclarationBasis} {db : CorpusDb}
    {metadata : EventRevisionMetadata} {updates : List EventTimestampUpdate}
    (hsaved : SavedAs db.state.currentMetadataJson declarations)
    (h : planApply lib opened corpusId expectedRevision requests declaredAt basis db =
      .ok (metadata, updates)) :
    let make := (SourceTimezoneApplyRequest.declaration · declaredAt basis
      (UInt64.ofNat (expectedRevision + 1)))
    (requests.map SourceTimezoneApplyRequest.source).Nodup ∧
      metadata = timezoneMetadata "timezone_resolution.apply"
        (saveAll make requests declarations) ∧
      ∃ resolved, updates = resolved.flatten ∧
        Forall₂ (fun request us => RequestApplied lib db (make request) us)
          requests resolved := by
  obtain ⟨current, hcurrent, hdecl, hwith⟩ := hsaved.storedMetadata
  simp only [planApply, revisionState, checkedNext, bind_ok, ensure_ok, pure_ok, require_ok,
    Prod.mk.injEq] at h
  obtain ⟨_, -, _, hdist, _, -, ⟨revision, current'⟩, ⟨m, hm, hpair⟩, _, -, applied, happlied,
    declarations₀, hdecl₀, ⟨saved, ups⟩, hreq, metadata', hmeta, rfl, rfl⟩ := h
  obtain ⟨rfl, rfl⟩ := Prod.mk.inj hpair
  obtain rfl := Except.ok.inj (hm.symm.trans hcurrent)
  obtain rfl := Except.ok.inj (hdecl₀.symm.trans hdecl)
  obtain ⟨rfl, resolved, hups, hall⟩ := applyRequests_ok hreq
  obtain rfl := Except.ok.inj (hmeta.symm.trans (hwith _ _))
  split at happlied
  · obtain rfl := Option.some.inj happlied
    exact ⟨(distinctSources_ok hdist).1, rfl, resolved, by simpa using hups, hall⟩
  · cases happlied

end

/-! ## Clears -/

theorem planClear_ok {opened : CoreResult Unit} {expectedRevision : Nat} {source : String}
    {appliedRevision : UInt64} {db : CorpusDb} {metadata : EventRevisionMetadata}
    {updates : List EventTimestampUpdate}
    (hsaved : SavedAs db.state.currentMetadataJson declarations)
    (h : planClear opened expectedRevision source appliedRevision db = .ok (metadata, updates)) :
    (∃ d, declarations.lookup source = some d ∧ d.appliedRevision = appliedRevision) ∧
      metadata = timezoneMetadata "timezone_resolution.clear" (declarations.erase source) ∧
      ∃ records, sourceRecords db source = .ok records ∧
        updates = (records.filter StoredTimestampRecord.isResolvedLocal).map (clearUpdate source) := by
  obtain ⟨current, hcurrent, hdecl, hwith⟩ := hsaved.storedMetadata
  simp only [planClear, revisionState, bind_ok, ensure_ok, pure_ok, require_ok,
    Prod.mk.injEq] at h
  obtain ⟨_, -, ⟨revision, current'⟩, ⟨m, hm, hpair⟩, _, -, declarations₀, hdecl₀, d, hd, _, happ,
    records, hrec, metadata', hmeta, rfl, rfl⟩ := h
  obtain ⟨rfl, rfl⟩ := Prod.mk.inj hpair
  obtain rfl := Except.ok.inj (hm.symm.trans hcurrent)
  obtain rfl := Except.ok.inj (hdecl₀.symm.trans hdecl)
  obtain rfl := Except.ok.inj (hmeta.symm.trans (hwith _ _))
  exact ⟨⟨d, hd, happ⟩, rfl, records, hrec, rfl⟩

theorem EventRow.isResolvedLocal_iff :
    r.isResolvedLocal = true ↔ r.timestampProvenance = some .unresolvedLocal ∧
      r.activeTimestampBasis = some .resolvedLocal := by
  simp [isResolvedLocal]

theorem isResolvedLocal_record {record : StoredTimestampRecord} (hok : recordOfRow r = .ok record)
    (hr : r.seq ≤ i64Max) : record.isResolvedLocal = r.isResolvedLocal := by
  obtain ⟨-, -, -, -, -, hp, hb, -⟩ := recordOfRow_ok hok hr
  rw [StoredTimestampRecord.isResolvedLocal, EventRow.isResolvedLocal, hp, hb]
  cases r.timestampProvenance <;> cases r.activeTimestampBasis <;> simp

section

variable {db : CorpusDb} {source : String} {records : List StoredTimestampRecord}

theorem row_of_clearUpdate (hrec : sourceRecords db source = .ok records)
    (hrows : ∀ r ∈ db.events, r.Stored) {u : EventTimestampUpdate}
    (hu : u ∈ (records.filter StoredTimestampRecord.isResolvedLocal).map (clearUpdate source)) :
    ∃ r ∈ db.events, r.source = source ∧ r.isResolvedLocal = true ∧
      ∃ record ∈ records, recordOfRow r = .ok record ∧ u = clearUpdate source record := by
  obtain ⟨record, hmem, rfl⟩ := mem_map.mp hu
  obtain ⟨hmem, hres⟩ := mem_filter.mp hmem
  obtain ⟨r, hr, hs, hok⟩ := (mem_sourceRecords hrec).2 record hmem
  rw [isResolvedLocal_record hok (hrows r hr).seq_le] at hres
  exact ⟨r, hr, hs, hres, record, hmem, hok, rfl⟩

theorem clearUpdate_of_row (hrec : sourceRecords db source = .ok records)
    (hrows : ∀ r ∈ db.events, r.Stored) (hr : r ∈ db.events) (hs : r.source = source)
    (hres : r.isResolvedLocal = true) :
    ∃ record ∈ records, recordOfRow r = .ok record ∧ clearUpdate source record ∈
      (records.filter StoredTimestampRecord.isResolvedLocal).map (clearUpdate source) := by
  obtain ⟨record, hmem, hok⟩ := (mem_sourceRecords hrec).1 r hr hs
  rw [← isResolvedLocal_record hok (hrows r hr).seq_le] at hres
  exact ⟨record, hmem, hok, mem_map_of_mem (mem_filter.mpr ⟨hmem, hres⟩)⟩

theorem key_clearUpdate {record : StoredTimestampRecord} (hok : recordOfRow r = .ok record)
    (hr : r.Stored) (hs : r.source = source) : r.key = (clearUpdate source record).key := by
  obtain ⟨-, hseq, -⟩ := recordOfRow_ok hok hr.seq_le
  show (r.seq, r.source) = (asI64 record.seq, source)
  rw [hseq, hs]

end

theorem planClear_accepted {source : String} {db : CorpusDb} {d : SourceTimezoneDeclaration}
    {records : List StoredTimestampRecord}
    (hsaved : SavedAs db.state.currentMetadataJson declarations)
    (hd : declarations.lookup source = some d) (hrec : sourceRecords db source = .ok records) :
    planClear (.ok ()) db.state.currentRevision source d.appliedRevision db =
      .ok (timezoneMetadata "timezone_resolution.clear" (declarations.erase source),
        (records.filter StoredTimestampRecord.isResolvedLocal).map (clearUpdate source)) := by
  obtain ⟨current, hcurrent, hdecl, hwith⟩ := hsaved.storedMetadata
  simp only [planClear, revisionState, bind_ok, ensure_ok, pure_ok, require_ok]
  exact ⟨(), trivial, _, ⟨current, hcurrent, rfl⟩, (), rfl, declarations, hdecl, d, hd, (), rfl,
    records, hrec, _, hwith _ _, rfl⟩

end ContextDesk.LogAnalysis
