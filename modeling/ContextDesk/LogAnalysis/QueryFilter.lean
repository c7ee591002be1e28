import ContextDesk.LogAnalysis.Query

/-!
# The two readings of a filter

A filter selects rows through `buildWhere` and decoded events through `eventMatchesFilter`. Both
are the conjunction of the clauses they share (`Common`) with a sequence range, a set of levels and
a keyword (`satisfies_iff`, `matches_iff`), and in these three they read differently: a bound from
`2 ^ 63` on turns negative in the database, levels are compared exactly there and without ASCII
case here, and the keyword is an untrimmed `LIKE` pattern there and a trimmed text here.
`filter_faithful_iff` says for which filters none of this shows.
-/

namespace ContextDesk.LogAnalysis

open Lib List

variable {lc : Lowercase} {f : EventQuery}

structure EventRow.InColumns (r : EventRow) : Prop where
  ts_ge : -2 ^ 63 ≤ r.ts
  ts_lt : r.ts < 2 ^ 63
  seq_le : r.seq ≤ i64Max
  template_le : r.templateId ≤ i64Max

/-- Both readings agree on every stored event. -/
def ReadingsAgree (lc : Lowercase) (f : EventQuery) (clauses : List Clause) : Prop :=
  ∀ r e, r.InColumns → mapEvent r = .ok e →
    eventMatchesFilter lc e f = satisfies lc clauses r

/-- A neighborhood under the filter calls a target found only if the filter selects its row, and
hidden only if it does not. -/
def NeighborhoodsAgree (lc : Lowercase) (f : EventQuery) (clauses : List Clause) : Prop :=
  ∀ q quality events result, q.filter = f → (∀ r ∈ events, r.InColumns) →
    Distinct EventRow.seq events → queryEventNeighborhood lc q quality events = .ok result →
    ∀ r ∈ events, r.seq = asI64 q.targetSeq →
      (result.status = .found → satisfies lc clauses r = true) ∧
      (result.status = .hiddenByFilter → satisfies lc clauses r = false)

/-! ## Decoded rows -/

theorem tryU64_ok {x : Int} {y : UInt64} (hx : x ≤ i64Max) (h : tryU64 x = some y) :
    0 ≤ x ∧ (y.toNat : Int) = x := by
  obtain ⟨hy, hle⟩ := tryU64_eq_some hx h
  rw [asI64_of_le hle] at hy
  omega

theorem asI64_eq_iff {y : UInt64} {x : Int} (h0 : 0 ≤ x) (hx : x ≤ i64Max) :
    x = asI64 y ↔ x = y.toNat := by
  have := y.toNat_lt
  unfold asI64 i64Max at *
  split <;> omega

theorem asI64_neg {x : UInt64} (h : i64Max < x.toNat) : asI64 x < 0 := by
  have := x.toNat_lt
  unfold asI64
  rw [if_neg (by omega)]
  omega

structure Decoded (r : EventRow) (e : ExplorerEvent) : Prop where
  seq_nonneg : 0 ≤ r.seq
  seq : (e.seq.toNat : Int) = r.seq
  template_nonneg : 0 ≤ r.templateId
  templateId : (e.templateId.toNat : Int) = r.templateId
  ts : e.ts = r.ts
  level : e.level = r.level
  service : e.service = r.service
  host : e.host = r.host
  traceId : e.traceId = r.traceId
  message : e.message = r.message
  source : e.source = r.source
  basis : e.activeTimestampBasis = r.activeTimestampBasis.getD .legacyUnknown

variable {r : EventRow} {e : ExplorerEvent}

theorem decoded_of_mapEvent (hr : r.InColumns) (h : mapEvent r = .ok e) : Decoded r e := by
  simp only [mapEvent, bind_ok, require_ok, pure_ok] at h
  obtain ⟨seq, hseq, id, hid, _, -, rfl⟩ := h
  obtain ⟨hs0, hs⟩ := tryU64_ok hr.seq_le hseq
  obtain ⟨ht0, ht⟩ := tryU64_ok hr.template_le hid
  exact ⟨hs0, hs, ht0, ht, rfl, rfl, rfl, rfl, rfl, rfl, rfl, rfl⟩

/-! ## The clauses -/

structure Common (f : EventQuery) (r : EventRow) : Prop where
  timeFrom : ∀ t ∈ f.timeFrom, t ≤ r.ts
  timeTo : ∀ t ∈ f.timeTo, r.ts < t
  templateId : ∀ id ∈ f.templateId, r.templateId = id.toNat
  templateIds : f.templateIds = [] ∨ ∃ id ∈ f.templateIds, r.templateId = id.toNat
  excluded : ∀ id ∈ f.excludedTemplateIds, r.templateId ≠ id.toNat
  sources : f.sources = [] ∨ r.source ∈ f.sources
  services : f.services = [] ∨ r.service.getD "" ∈ f.services
  hosts : f.hosts = [] ∨ r.host.getD "" ∈ f.hosts
  traceId : ∀ id ∈ f.traceId, r.traceId = some id
  wall : f.wallTimeOnly = true → r.isWall = true

/-- The sequence range as the database reads it. -/
def SeqStored (f : EventQuery) (r : EventRow) : Prop :=
  (∀ lo ∈ f.seqFrom, asI64 lo ≤ r.seq) ∧ ∀ hi ∈ f.seqTo, r.seq ≤ asI64 hi

def SeqAsked (f : EventQuery) (r : EventRow) : Prop :=
  (∀ lo ∈ f.seqFrom, (lo.toNat : Int) ≤ r.seq) ∧ ∀ hi ∈ f.seqTo, r.seq ≤ hi.toNat

def LevelExact (f : EventQuery) (r : EventRow) : Prop := f.levels = [] ∨ r.level ∈ f.levels

def LevelFolded (f : EventQuery) (r : EventRow) : Prop :=
  f.levels = [] ∨
    ∃ level ∈ f.levels, Text.asciiLower level.toList = Text.asciiLower r.level.toList

def KeywordLike (lc : Lowercase) (f : EventQuery) (r : EventRow) : Prop :=
  ∀ keyword ∈ f.keyword, Text.trim keyword.toList = [] ∨
    Sql.like ('%' :: lc.lower keyword.toList ++ ['%']) (lc.lower r.message.toList) = true

def KeywordContained (lc : Lowercase) (f : EventQuery) (r : EventRow) : Prop :=
  ∀ keyword ∈ f.keyword, Text.trim keyword.toList = [] ∨
    lc.lower (Text.trim keyword.toList) <:+: lc.lower r.message.toList

theorem allTrue_append {a b : List Sql.Truth} :
    Sql.allTrue (a ++ b) = true ↔ Sql.allTrue a = true ∧ Sql.allTrue b = true := by
  simp [Sql.allTrue]

variable {α : Type}

theorem allTrue_unlessEmpty {l : List α} {c : Clause} :
    Sql.allTrue ((clauseUnlessEmpty l c).map (Clause.truth lc r)) = true ↔
      l = [] ∨ c.truth lc r = some true := by
  unfold clauseUnlessEmpty
  cases l <;> simp [Sql.allTrue]

theorem allTrue_option {o : Option α} {make : α → Clause} :
    Sql.allTrue ((o.toList.map make).map (Clause.truth lc r)) = true ↔
      ∀ a ∈ o, (make a).truth lc r = some true := by
  cases o <;> simp [Sql.allTrue]

theorem allTrue_keyword :
    Sql.allTrue ((keywordClause lc f.keyword).map (Clause.truth lc r)) = true ↔
      KeywordLike lc f r := by
  unfold keywordClause KeywordLike
  cases f.keyword with
  | none => simp [Sql.allTrue]
  | some keyword =>
    by_cases hk : Text.trim keyword.toList = []
    · simp [Sql.allTrue, hk]
    · simp [Sql.allTrue, hk, Clause.truth]

theorem isIn_true [DecidableEq α] {x : Option α} {l : List α} :
    Sql.isIn x l = some true ↔ ∃ a ∈ x, a ∈ l := by
  cases x <;> simp [Sql.isIn]

theorem wall_iff :
    (∃ b ∈ r.activeTimestampBasis,
      b ∈ [ActiveTimestampBasis.explicitWall, ActiveTimestampBasis.resolvedLocal]) ↔
      r.isWall = true := by
  unfold EventRow.isWall
  cases r.activeTimestampBasis with
  | none => simp
  | some b => cases b <;> simp [ActiveTimestampBasis.isWallClock]

theorem excluded_ok {ids : List UInt64} {excluded : List Int}
    (h : collect
      (fun id : UInt64 => do
        ensure (id.toNat ≤ i64Max) "excluded template id exceeds signed storage range"
        pure (id.toNat : Int))
      ((ids.dedup).insertionSort (· ≤ ·)) = .ok excluded) (x : Int) :
    x ∈ excluded ↔ ∃ id ∈ ids, x = id.toNat := by
  have hmem : ∀ id, id ∈ (ids.dedup).insertionSort (· ≤ ·) ↔ id ∈ ids := by simp
  rw [collect_ok] at h
  constructor
  · intro hx
    obtain ⟨id, hid, hstep⟩ := exists_mem_left h hx
    simp only [bind_ok, pure_ok] at hstep
    obtain ⟨_, -, rfl⟩ := hstep
    exact ⟨id, (hmem id).mp hid, rfl⟩
  · rintro ⟨id, hid, rfl⟩
    obtain ⟨y, hy, hstep⟩ := exists_mem_right h ((hmem id).mpr hid)
    simp only [bind_ok, pure_ok] at hstep
    obtain ⟨_, -, rfl⟩ := hstep
    exact hy

variable {clauses : List Clause}

/-- The conditions of a `WHERE` clause, one by one. -/
theorem satisfies_iff (hr : r.InColumns) (h0 : 0 ≤ r.templateId)
    (h : buildWhere lc f = .ok clauses) :
    satisfies lc clauses r = true ↔
      Common f r ∧ SeqStored f r ∧ LevelExact f r ∧ KeywordLike lc f r := by
  simp only [buildWhere, bind_ok, pure_ok, ensure_ok] at h
  obtain ⟨_, -, excluded, hex, rfl⟩ := h
  have hid : ∀ id : UInt64, r.templateId = asI64 id ↔ r.templateId = id.toNat :=
    fun id => asI64_eq_iff h0 hr.template_le
  simp only [satisfies, map_append, allTrue_append, allTrue_option, allTrue_unlessEmpty,
    allTrue_keyword]
  have hwall : Sql.allTrue ((if f.wallTimeOnly = true then
      [Clause.basisIn [.explicitWall, .resolvedLocal]] else []).map (Clause.truth lc r)) = true ↔
      (f.wallTimeOnly = true → r.isWall = true) := by
    by_cases hw : f.wallTimeOnly = true
    · simp only [hw, if_true, true_implies, ← wall_iff, ← isIn_true]
      simp [Sql.allTrue, Clause.truth]
    · simp [hw, Sql.allTrue]
  rw [hwall]
  simp only [Clause.truth, Sql.eq, isIn_true, Sql.notIn, Option.map_some, Option.some.injEq,
    decide_eq_true_eq, Option.mem_some_iff, exists_eq_left', mem_map, excluded_ok hex]
  constructor
  · rintro ⟨⟨⟨⟨⟨⟨⟨⟨⟨⟨⟨⟨⟨from_, to_⟩, lo⟩, hi⟩, tid⟩, tids⟩, excl⟩, level⟩, src⟩, svc⟩, host⟩,
      trace⟩, kw⟩, wall⟩
    refine ⟨⟨from_, to_, fun id h => (hid id).mp (tid id h), ?_, ?_, src, svc, host, ?_, wall⟩,
      ⟨lo, hi⟩, level, kw⟩
    · refine tids.imp_right ?_
      rintro ⟨id, hmem, heq⟩
      exact ⟨id, hmem, (hid id).mp heq.symm⟩
    · intro id hmem heq
      rcases excl with hnil | hout
      · rw [hnil] at hmem
        cases hmem
      · exact hout ⟨id, hmem, heq⟩
    · intro id hmem
      have := trace id hmem
      simpa using this
  · rintro ⟨c, ⟨lo, hi⟩, level, kw⟩
    refine ⟨⟨⟨⟨⟨⟨⟨⟨⟨⟨⟨⟨⟨c.timeFrom, c.timeTo⟩, lo⟩, hi⟩, fun id h => (hid id).mpr (c.templateId id h)⟩,
      ?_⟩, ?_⟩, level⟩, c.sources⟩, c.services⟩, c.hosts⟩, ?_⟩, kw⟩, c.wall⟩
    · refine c.templateIds.imp_right ?_
      rintro ⟨id, hmem, heq⟩
      exact ⟨id, hmem, ((hid id).mpr heq).symm⟩
    · refine .inr ?_
      rintro ⟨id, hmem, heq⟩
      exact c.excluded id hmem heq
    · intro id hmem
      simp [c.traceId id hmem]

/-- The conditions of the predicate on the event of a row, one by one. -/
theorem matches_iff (d : Decoded r e) :
    eventMatchesFilter lc e f = true ↔
      Common f r ∧ SeqAsked f r ∧ LevelFolded f r ∧ KeywordContained lc f r := by
  have hid : ∀ id : UInt64, e.templateId = id ↔ r.templateId = id.toNat := fun id => by
    rw [← d.templateId, ← UInt64.toNat_inj]
    omega
  have hlo : ∀ lo : UInt64, ¬ e.seq < lo ↔ (lo.toNat : Int) ≤ r.seq := fun lo => by
    rw [← d.seq, UInt64.lt_iff_toNat_lt]
    omega
  have hhi : ∀ hi : UInt64, ¬ hi < e.seq ↔ r.seq ≤ hi.toNat := fun hi => by
    rw [← d.seq, UInt64.lt_iff_toNat_lt]
    omega
  have hwall : classifyActiveTimestampBasis e.activeTimestampBasis = .wall ↔ r.isWall = true := by
    rw [d.basis, EventRow.isWall]
    cases r.activeTimestampBasis with
    | none => decide
    | some b => cases b <;> decide
  simp only [eventMatchesFilter, Bool.and_eq_true, Bool.or_eq_true, Option.all_eq_true,
    Bool.not_eq_true', decide_eq_false_iff_not, beq_iff_eq, List.isEmpty_iff, gt_iff_lt,
    contains_eq_mem, decide_eq_true_eq, any_eq_true, Text.eqIgnoreAsciiCase, ge_iff_le,
    hid, hlo, hhi, hwall, d.ts, d.level, d.service, d.host, d.traceId, d.message, d.source, Text.asciiLower_idem]
  have hmem : ∀ ids : List UInt64,
      e.templateId ∈ ids ↔ ∃ id ∈ ids, r.templateId = id.toNat := fun ids => by
    constructor
    · exact fun h => ⟨_, h, d.templateId.symm⟩
    · rintro ⟨id, h, heq⟩
      rwa [(hid id).mpr heq]
  simp only [hmem, not_lt, not_le]
  constructor
  · rintro ⟨⟨⟨⟨⟨⟨⟨⟨⟨⟨⟨⟨⟨from_, to_⟩, lo⟩, hi⟩, tid⟩, tids⟩, excl⟩, level⟩, src⟩, svc⟩, host⟩,
      trace⟩, kw⟩, wall⟩
    refine ⟨⟨from_, to_, tid, tids, fun id h heq => excl ⟨id, h, heq⟩, src, svc, host, trace, ?_⟩,
      ⟨lo, hi⟩, level, kw⟩
    intro hw
    rcases wall with hoff | hwall
    · rw [hw] at hoff
      cases hoff
    · exact hwall
  · rintro ⟨c, ⟨lo, hi⟩, level, kw⟩
    refine ⟨⟨⟨⟨⟨⟨⟨⟨⟨⟨⟨⟨⟨c.timeFrom, c.timeTo⟩, lo⟩, hi⟩, c.templateId⟩, c.templateIds⟩, ?_⟩, level⟩,
      c.sources⟩, c.services⟩, c.hosts⟩, c.traceId⟩, kw⟩, ?_⟩
    · rintro ⟨id, h, heq⟩
      exact c.excluded id h heq
    · by_cases hw : f.wallTimeOnly = true
      · exact .inr (c.wall hw)
      · exact .inl (by simpa using hw)

/-! ## When the readings agree -/

/-- Some timestamp lies in the filter's time range. -/
def EventQuery.AllowsTime (f : EventQuery) : Prop :=
  ∃ ts : Int, -2 ^ 63 ≤ ts ∧ ts < 2 ^ 63 ∧ (∀ t ∈ f.timeFrom, t ≤ ts) ∧ ∀ t ∈ f.timeTo, ts < t

/-- Some stored template id passes the template clauses. -/
def EventQuery.AllowsTemplate (f : EventQuery) : Prop :=
  ∃ id : UInt64, id.toNat ≤ i64Max ∧ (∀ a ∈ f.templateId, a = id) ∧
    (f.templateIds = [] ∨ id ∈ f.templateIds) ∧ id ∉ f.excludedTemplateIds

/-- Every listed level is listed in every ASCII case. -/
def LevelsClosed (levels : List String) : Prop :=
  ∀ level ∈ levels, ∀ other : String,
    Text.asciiLower other.toList = Text.asciiLower level.toList → other ∈ levels

/-- The keyword is blank, or has neither wildcards nor white space around it. -/
def KeywordPlain (keyword : String) : Prop :=
  Text.trim keyword.toList = [] ∨
    (Text.trim keyword.toList = keyword.toList ∧ ∀ c ∈ keyword.toList, Sql.isWild c = false)

/-- A sequence bound keeps its value in the database. -/
def SeqBoundsStored (f : EventQuery) : Prop :=
  (∀ lo ∈ f.seqFrom, lo.toNat ≤ i64Max) ∧ ∀ hi ∈ f.seqTo, hi.toNat ≤ i64Max

/-- The filters that both readings treat alike. -/
def NoDrift (f : EventQuery) : Prop :=
  ¬ f.AllowsTime ∨ ¬ f.AllowsTemplate ∨
    (∃ lo ∈ f.seqFrom, ∃ hi ∈ f.seqTo, i64Max < lo.toNat ∧ i64Max < hi.toNat) ∨
    (SeqBoundsStored f ∧
      ((∃ lo ∈ f.seqFrom, ∃ hi ∈ f.seqTo, hi < lo) ∨
        (LevelsClosed f.levels ∧ ∀ keyword ∈ f.keyword, KeywordPlain keyword)))

theorem allowsTime_of_common (hr : r.InColumns) (c : Common f r) : f.AllowsTime :=
  ⟨r.ts, hr.ts_ge, hr.ts_lt, c.timeFrom, c.timeTo⟩

theorem allowsTemplate_of_common (hr : r.InColumns) (d : Decoded r e) (c : Common f r) :
    f.AllowsTemplate := by
  have hid : ∀ id : UInt64, r.templateId = id.toNat → id = e.templateId := fun id h => by
    rw [← d.templateId] at h
    exact UInt64.toNat_inj.mp (by omega)
  refine ⟨e.templateId, ?_, fun a ha => hid a (c.templateId a ha), ?_, ?_⟩
  · have := hr.template_le
    rw [← d.templateId] at this
    omega
  · refine c.templateIds.imp_right ?_
    rintro ⟨id, hmem, heq⟩
    rwa [← hid id heq]
  · intro hmem
    exact c.excluded _ hmem d.templateId.symm

theorem seq_iff (h : SeqBoundsStored f) : SeqStored f r ↔ SeqAsked f r := by
  have hlo : ∀ lo ∈ f.seqFrom, asI64 lo = lo.toNat := fun lo hmem => asI64_of_le (h.1 lo hmem)
  have hhi : ∀ hi ∈ f.seqTo, asI64 hi = hi.toNat := fun hi hmem => asI64_of_le (h.2 hi hmem)
  unfold SeqStored SeqAsked
  refine and_congr (forall₂_congr fun lo hmem => ?_) (forall₂_congr fun hi hmem => ?_)
  · rw [hlo lo hmem]
  · rw [hhi hi hmem]

theorem level_iff (h : LevelsClosed f.levels) : LevelFolded f r ↔ LevelExact f r := by
  refine or_congr_right ?_
  constructor
  · rintro ⟨level, hmem, heq⟩
    exact h level hmem r.level heq.symm
  · intro hmem
    exact ⟨r.level, hmem, rfl⟩

theorem isWild_blankWild (c : Char) : Sql.isWild (blankWild c) = false := by
  unfold blankWild
  split
  · decide
  · rename_i hc
    exact Bool.eq_false_iff.mpr hc

theorem lower_plain {s : List Char} (h : ∀ c ∈ s, Sql.isWild c = false) :
    ∀ c ∈ lc.lower s, Sql.isWild c = false := by
  have hs : s.map blankWild = s := by
    conv_rhs => rw [← map_id s]
    refine map_congr_left fun c hc => ?_
    simp [blankWild, h c hc]
  have hblank := lc.lower_blank s
  rw [hs] at hblank
  intro c hc
  rw [hblank] at hc
  obtain ⟨d, -, rfl⟩ := mem_map.mp hc
  exact isWild_blankWild d

theorem keyword_iff (h : ∀ keyword ∈ f.keyword, KeywordPlain keyword) :
    KeywordContained lc f r ↔ KeywordLike lc f r := by
  refine forall₂_congr fun keyword hmem => ?_
  rcases h keyword hmem with hblank | ⟨htrim, hplain⟩
  · simp [hblank]
  · rw [htrim, Sql.like_contains (lower_plain hplain)]

/-- For every row, a filter without drift reads the same in both ways. -/
theorem readings_iff (hr : r.InColumns) (d : Decoded r e) (h : NoDrift f) :
    (Common f r ∧ SeqAsked f r ∧ LevelFolded f r ∧ KeywordContained lc f r) ↔
      Common f r ∧ SeqStored f r ∧ LevelExact f r ∧ KeywordLike lc f r := by
  refine and_congr_right fun c => ?_
  have h0 := d.seq_nonneg
  have hle := hr.seq_le
  rcases h with h | h | ⟨lo, hlo, hi, hhi, blo, bhi⟩ | ⟨hb, h⟩
  · exact absurd (allowsTime_of_common hr c) h
  · exact absurd (allowsTemplate_of_common hr d c) h
  · -- the lower bound refuses every event, and its negative twin every row
    have hneg := asI64_neg bhi
    constructor
    · rintro ⟨⟨hfrom, -⟩, -⟩
      have := hfrom lo hlo
      omega
    · rintro ⟨⟨-, hto⟩, -⟩
      have := hto hi hhi
      omega
  · rw [seq_iff hb]
    refine and_congr_right fun hseq => ?_
    rcases h with ⟨lo, hlo, hi, hhi, hlt⟩ | ⟨hlevels, hkeyword⟩
    · have h1 := hseq.1 lo hlo
      have h2 := hseq.2 hi hhi
      rw [UInt64.lt_iff_toNat_lt] at hlt
      omega
    · rw [level_iff hlevels, keyword_iff hkeyword]

/-! ## Rows that show a drift -/

/-- A row that passes the shared clauses at the given time and template, with the rest free. -/
def probe (f : EventQuery) (ts : Int) (id : UInt64) (seq : Nat) (level : String)
    (message : List Char) : EventRow where
  seq := seq
  ts := ts
  level := level
  service := f.services.head?
  host := f.hosts.head?
  templateId := id.toNat
  params := []
  traceId := f.traceId
  message := String.ofList message
  source := f.sources.headD ""
  original := none
  timestampProvenance := some .explicitWallClock
  activeTimestampBasis := some .explicitWall
  unresolvedLocalTimestamp := none

theorem probe_mapEvent (f : EventQuery) (ts : Int) (id : UInt64) (seq : Nat) (level : String)
    (message : List Char) : ∃ e, mapEvent (probe f ts id seq level message) = .ok e := by
  simp only [mapEvent, exists_bind_ok, require_ok]
  exact ⟨_, by simp [probe, tryU64]; rfl, _, by simp [probe, tryU64]; rfl, (), rfl, exists_pure_ok⟩

theorem head_mem_or_nil (l : List α) (a : α) : l = [] ∨ l.headD a ∈ l := by
  cases l <;> simp

variable {level : String}

theorem probe_common {ts : Int} {id : UInt64} {seq : Nat} {message : List Char}
    (hfrom : ∀ t ∈ f.timeFrom, t ≤ ts) (hto : ∀ t ∈ f.timeTo, ts < t)
    (hid : ∀ a ∈ f.templateId, a = id) (hids : f.templateIds = [] ∨ id ∈ f.templateIds)
    (hex : id ∉ f.excludedTemplateIds) : Common f (probe f ts id seq level message) := by
  refine ⟨hfrom, hto, fun a ha => by rw [hid a ha]; rfl, ?_, ?_, head_mem_or_nil _ _, ?_, ?_,
    fun a ha => ha, fun _ => rfl⟩
  · exact hids.imp_right fun h => ⟨id, h, rfl⟩
  · intro a ha heq
    have : id = a := UInt64.toNat_inj.mp (Int.ofNat.inj heq)
    exact hex (this ▸ ha)
  · show f.services = [] ∨ f.services.head?.getD "" ∈ f.services
    cases f.services <;> simp
  · show f.hosts = [] ∨ f.hosts.head?.getD "" ∈ f.hosts
    cases f.hosts <;> simp

def ProbeAgrees (lc : Lowercase) (f : EventQuery) (r : EventRow) : Prop :=
  (SeqAsked f r ∧ LevelFolded f r ∧ KeywordContained lc f r) ↔
    SeqStored f r ∧ LevelExact f r ∧ KeywordLike lc f r

theorem probe_agrees (hw : buildWhere lc f = .ok clauses) (hagree : ReadingsAgree lc f clauses)
    (htime : f.AllowsTime) (htemplate : f.AllowsTemplate) :
    ∃ ts id, ∀ seq ≤ i64Max, ∀ level message,
      ProbeAgrees lc f (probe f ts id seq level message) := by
  obtain ⟨ts, hge, hlt, hfrom, hto⟩ := htime
  obtain ⟨id, hle, hid, hids, hex⟩ := htemplate
  refine ⟨ts, id, fun seq hseq level message => ?_⟩
  have hr : (probe f ts id seq level message).InColumns :=
    ⟨hge, hlt, Int.ofNat_le.mpr hseq, Int.ofNat_le.mpr hle⟩
  have hc : Common f (probe f ts id seq level message) := probe_common hfrom hto hid hids hex
  obtain ⟨e, he⟩ := probe_mapEvent f ts id seq level message
  have hsame := Bool.eq_iff_iff.mp (hagree _ e hr he)
  rw [matches_iff (decoded_of_mapEvent hr he), satisfies_iff hr (Int.natCast_nonneg _) hw] at hsame
  simp only [hc, true_and] at hsame
  exact hsame

/-- A message that the keyword matches as a pattern. -/
def likeMessage (f : EventQuery) : List Char := (f.keyword.getD "").toList.map blankWild

theorem like_likeMessage {ts : Int} {id : UInt64} {seq : Nat} :
    KeywordLike lc f (probe f ts id seq level (likeMessage f)) := by
  intro keyword hk
  refine .inr (Sql.like_part.mpr ⟨_, infix_refl _, ?_⟩)
  have hblank : ∀ c, Sql.isWild c = false → blankWild c = c := fun c hc => by simp [blankWild, hc]
  simp only [probe, likeMessage, Option.mem_def.mp hk, Option.getD_some, String.toList_ofList,
    lc.lower_blank]
  exact Sql.like_map hblank _

/-- A message that contains the keyword as a text. -/
def textMessage (f : EventQuery) : List Char := Text.trim (f.keyword.getD "").toList

theorem contained_textMessage {ts : Int} {id : UInt64} {seq : Nat} :
    KeywordContained lc f (probe f ts id seq level (textMessage f)) := by
  intro keyword hk
  refine .inr ?_
  simp only [probe, textMessage, Option.mem_def.mp hk, Option.getD_some, String.toList_ofList]
  exact infix_refl _

def listedLevel (f : EventQuery) : String := f.levels.headD ""

theorem exact_listedLevel {ts : Int} {id : UInt64} {seq : Nat} {message : List Char} :
    LevelExact f (probe f ts id seq (listedLevel f) message) :=
  head_mem_or_nil _ _

theorem folded_of_exact (h : LevelExact f r) : LevelFolded f r :=
  h.imp_right fun hmem => ⟨r.level, hmem, rfl⟩

theorem asked_at_start (ts : Int) (id : UInt64) (hstored : ∀ lo ∈ f.seqFrom, lo.toNat ≤ i64Max)
    (horder : ∀ lo ∈ f.seqFrom, ∀ hi ∈ f.seqTo, lo.toNat ≤ hi.toNat) :
    ∃ seq ≤ i64Max, ∀ level message, SeqAsked f (probe f ts id seq level message) := by
  cases hfrom : f.seqFrom with
  | none =>
    refine ⟨0, Nat.zero_le _, fun level message => ⟨?_, fun hi _ => Int.natCast_nonneg _⟩⟩
    intro lo hlo
    rw [hfrom] at hlo
    cases hlo
  | some lo =>
    refine ⟨lo.toNat, hstored lo hfrom, fun level message => ⟨fun lo' hlo' => ?_, fun hi hmem => ?_⟩⟩
    · obtain rfl := Option.mem_unique hlo' hfrom
      exact Int.le_refl _
    · exact Int.ofNat_le.mpr (horder lo hfrom hi hmem)

section Drift

variable {ts : Int} {id : UInt64}
  (hprobe : ∀ seq ≤ i64Max, ∀ level message, ProbeAgrees lc f (probe f ts id seq level message))

include hprobe

theorem upper_of_lower {lo : UInt64} (hlo : lo ∈ f.seqFrom) (hbad : i64Max < lo.toNat) :
    ∃ hi ∈ f.seqTo, i64Max < hi.toNat := by
  by_contra hhi
  push Not at hhi
  have hstored : SeqStored f (probe f ts id 0 (listedLevel f) (likeMessage f)) := by
    refine ⟨fun lo' hlo' => ?_, fun hi hmem => ?_⟩
    · obtain rfl := Option.mem_unique hlo' hlo
      have := asI64_neg hbad
      show asI64 lo' ≤ 0
      omega
    · rw [asI64_of_le (hhi hi hmem)]
      exact Int.natCast_nonneg _
  have h := ((hprobe 0 (Nat.zero_le _) _ _).mpr
    ⟨hstored, exact_listedLevel, like_likeMessage⟩).1.1 lo hlo
  have : (lo.toNat : Int) ≤ 0 := h
  omega

theorem lower_of_upper {hi : UInt64} (hhi : hi ∈ f.seqTo) (hbad : i64Max < hi.toNat) :
    ∃ lo ∈ f.seqFrom, i64Max < lo.toNat := by
  by_contra hlo
  push Not at hlo
  have horder : ∀ lo ∈ f.seqFrom, ∀ hi ∈ f.seqTo, lo.toNat ≤ hi.toNat := fun lo hmem hi' hmem' => by
    obtain rfl := Option.mem_unique hmem' hhi
    have := hlo lo hmem
    omega
  obtain ⟨seq, hseq, hasked⟩ := asked_at_start ts id hlo horder
  have h := ((hprobe seq hseq _ _).mp
    ⟨hasked _ _, folded_of_exact exact_listedLevel, contained_textMessage⟩).1.2 hi hhi
  have := asI64_neg hbad
  have : (seq : Int) ≤ asI64 hi := h
  omega

section AskedEverywhere

variable {seq : Nat} (hseq : seq ≤ i64Max)
  (hasked : ∀ level message, SeqAsked f (probe f ts id seq level message))

include hseq hasked

/-- A level in another case matches the event and not the row. -/
theorem levels_closed : LevelsClosed f.levels := by
  intro level hmem other heq
  have hfolded : LevelFolded f (probe f ts id seq other (textMessage f)) :=
    .inr ⟨level, hmem, heq.symm⟩
  rcases ((hprobe seq hseq _ _).mp ⟨hasked _ _, hfolded, contained_textMessage⟩).2.1 with h | h
  · rw [h] at hmem
    cases hmem
  · exact h

/-- A keyword with wildcards matches the row of `likeMessage` and not its event. -/
theorem keyword_not_wild (hb : SeqBoundsStored f) {keyword : String} (hk : keyword ∈ f.keyword)
    (hblank : Text.trim keyword.toList ≠ []) : ∀ c ∈ keyword.toList, Sql.isWild c = false := by
  intro c hc
  by_contra hwild
  rw [Bool.not_eq_false] at hwild
  have hstored := (seq_iff hb).mpr (hasked (listedLevel f) (likeMessage f))
  have hin := ((hprobe seq hseq _ _).mpr ⟨hstored, exact_listedLevel, like_likeMessage⟩).2.2 keyword hk
  have hspace : Text.isWhitespace c = false := by
    simp only [Sql.isWild, decide_eq_true_eq] at hwild
    rcases hwild with rfl | rfl <;> decide
  have hmem : c ∈ lc.lower (Text.trim keyword.toList) :=
    lc.wild_mem _ c hwild (Text.mem_trim hc hspace)
  have hplain : ∀ d ∈ likeMessage f, Sql.isWild d = false := fun d hd => by
    obtain ⟨x, -, rfl⟩ := mem_map.mp hd
    exact isWild_blankWild x
  have hmessage : c ∈ lc.lower (likeMessage f) := by
    simpa [probe] using (hin.resolve_left hblank).subset hmem
  have := lower_plain hplain c hmessage
  rw [hwild] at this
  cases this

/-- A keyword with white space around it matches the event of `textMessage` and not its row. -/
theorem keyword_trimmed {keyword : String} (hk : keyword ∈ f.keyword)
    (hblank : Text.trim keyword.toList ≠ []) (hplain : ∀ c ∈ keyword.toList, Sql.isWild c = false) :
    Text.trim keyword.toList = keyword.toList := by
  by_contra htrim
  have hlike := ((hprobe seq hseq (listedLevel f) _).mp
    ⟨hasked _ _, folded_of_exact exact_listedLevel, contained_textMessage⟩).2.2 keyword hk
  have hin := (Sql.like_contains (lower_plain hplain)).mp (hlike.resolve_left hblank)
  have hle := hin.length_le
  have hlt := lc.lower_trim _ htrim
  simp only [probe, textMessage, Option.mem_def.mp hk, Option.getD_some,
    String.toList_ofList] at hle
  omega

end AskedEverywhere

end Drift

/-- Two readings that agree on every row leave no room for drift. -/
theorem noDrift_of_agree (hw : buildWhere lc f = .ok clauses)
    (hagree : ReadingsAgree lc f clauses) : NoDrift f := by
  by_cases htime : f.AllowsTime
  swap
  · exact .inl htime
  by_cases htemplate : f.AllowsTemplate
  swap
  · exact .inr (.inl htemplate)
  obtain ⟨ts, id, hprobe⟩ := probe_agrees hw hagree htime htemplate
  refine .inr (.inr ?_)
  by_cases hlo : ∃ lo ∈ f.seqFrom, i64Max < lo.toNat
  · obtain ⟨lo, hmem, hbad⟩ := hlo
    obtain ⟨hi, hmem', hbad'⟩ := upper_of_lower hprobe hmem hbad
    exact .inl ⟨lo, hmem, hi, hmem', hbad, hbad'⟩
  by_cases hhi : ∃ hi ∈ f.seqTo, i64Max < hi.toNat
  · obtain ⟨hi, hmem, hbad⟩ := hhi
    exact absurd (lower_of_upper hprobe hmem hbad) hlo
  push Not at hlo hhi
  refine .inr ⟨⟨hlo, hhi⟩, ?_⟩
  by_cases horder : ∃ lo ∈ f.seqFrom, ∃ hi ∈ f.seqTo, hi < lo
  · exact .inl horder
  push Not at horder
  simp only [UInt64.lt_iff_toNat_lt, not_lt] at horder
  obtain ⟨seq, hseq, hasked⟩ := asked_at_start ts id hlo horder
  refine .inr ⟨levels_closed hprobe hseq hasked, fun keyword hk => ?_⟩
  by_cases hblank : Text.trim keyword.toList = []
  · exact .inl hblank
  have hplain := keyword_not_wild hprobe hseq hasked ⟨hlo, hhi⟩ hk hblank
  exact .inr ⟨keyword_trimmed hprobe hseq hasked hk hblank hplain, hplain⟩

/-! ## Neighborhoods -/

/-- The event that a sequence fetches is the event of its row. -/
theorem fetchEventBySeq_ok {seq : UInt64} {events : List EventRow} {target : Option ExplorerEvent}
    (hd : Distinct EventRow.seq events) (hmem : r ∈ events) (hr : r.seq = asI64 seq)
    (h : fetchEventBySeq seq events = .ok target) : ∃ e, target = some e ∧ mapEvent r = .ok e := by
  have hone : events.filter (fun s => s.seq = asI64 seq) = [r] := by
    rw [← hr]
    exact hd.filter_eq_singleton hmem (decide_eq_true rfl) fun s _ hs => of_decide_eq_true hs
  simp only [fetchEventBySeq, bind_ok, pure_ok, hone, take_succ_cons, take_zero,
    collect_ok] at h
  obtain ⟨rows, hrows, rfl⟩ := h
  obtain ⟨e, rest, he, hnil, rfl⟩ := forall₂_cons_left_iff.mp hrows
  obtain rfl := forall₂_nil_left_iff.mp hnil
  exact ⟨e, rfl, he⟩

theorem queryEventNeighborhood_status {q : EventNeighborhoodQuery} {quality : TimeQuality}
    {events : List EventRow} {result : EventNeighborhood} {target : ExplorerEvent}
    (hf : fetchEventBySeq q.targetSeq events = .ok (some target))
    (h : queryEventNeighborhood lc q quality events = .ok result) :
    (result.status = .found ∧ eventMatchesFilter lc target q.filter = true) ∨
      (result.status = .hiddenByFilter ∧ eventMatchesFilter lc target q.filter = false) := by
  simp only [queryEventNeighborhood, bind_ok] at h
  obtain ⟨t, ht, h⟩ := h
  obtain rfl : some target = t := Except.ok.inj (hf.symm.trans ht)
  dsimp only at h
  split at h
  · rename_i hm
    change (!eventMatchesFilter lc target q.filter) = true at hm
    simp only [bind_ok, pure_ok] at h
    obtain ⟨_, -, rfl⟩ := h
    exact .inr ⟨rfl, by simpa using hm⟩
  · rename_i hm
    change ¬ (!eventMatchesFilter lc target q.filter) = true at hm
    simp only [bind_ok, pure_ok] at h
    obtain ⟨_, -, _, -, _, -, rfl⟩ := h
    exact .inl ⟨rfl, by simpa using hm⟩

theorem neighborhoods_agree (hagree : ReadingsAgree lc f clauses) :
    NeighborhoodsAgree lc f clauses := by
  intro q quality events result hq hcols hd h r hmem hr
  have hfetch := h
  simp only [queryEventNeighborhood, bind_ok] at hfetch
  obtain ⟨target, hfetch, -⟩ := hfetch
  obtain ⟨e, rfl, he⟩ := fetchEventBySeq_ok hd hmem hr hfetch
  rw [← hagree r e (hcols r hmem) he, ← hq]
  rcases queryEventNeighborhood_status hfetch h with ⟨hs, hm⟩ | ⟨hs, hm⟩ <;> simp [hs, hm]

/-- The two readings of a filter agree, and neighborhoods with them, exactly when the filter has
no drift. -/
theorem filter_faithful_iff {clauses : List Clause} (hw : buildWhere lc f = .ok clauses) :
    (ReadingsAgree lc f clauses ∧ NeighborhoodsAgree lc f clauses) ↔ NoDrift f := by
  refine ⟨fun h => noDrift_of_agree hw h.1, fun h => ?_⟩
  have hagree : ReadingsAgree lc f clauses := by
    intro r e hr he
    have d := decoded_of_mapEvent hr he
    refine Bool.eq_iff_iff.mpr ?_
    rw [matches_iff d, satisfies_iff hr d.template_nonneg hw]
    exact readings_iff hr d h
  exact ⟨hagree, neighborhoods_agree hagree⟩

/-! ## ASCII text -/

theorem toLower_blankWild (c : Char) : (blankWild c).toLower = blankWild c.toLower := by
  by_cases hc : Sql.isWild c = true
  · simp only [Sql.isWild, decide_eq_true_eq] at hc
    rcases hc with rfl | rfl <;> decide
  · have hlower : Sql.isWild c.toLower = false := by
      by_cases hu : c.isUpper = true
      · have hl : c.toLower.isAlpha = true := by simp [Char.isAlpha, hu]
        by_contra hw
        simp only [Sql.isWild, Bool.not_eq_false, decide_eq_true_eq] at hw
        rcases hw with hw | hw <;> rw [hw] at hl <;> cases hl
      · rw [Char.toLower_eq_of_not_isUpper hu]
        exact Bool.eq_false_iff.mpr hc
    simp [blankWild, hc, hlower]

def asciiLowercase : Lowercase where
  lower := Text.asciiLower
  lower_blank s := by
    simp only [Text.asciiLower, map_map]
    exact map_congr_left fun c _ => toLower_blankWild c
  wild_mem s c hc hmem := by
    refine mem_map.mpr ⟨c, hmem, ?_⟩
    simp only [Sql.isWild, decide_eq_true_eq] at hc
    rcases hc with rfl | rfl <;> decide
  lower_trim s h := by
    simp only [Text.asciiLower, length_map]
    exact lt_of_le_of_ne (Text.trim_sublist s).length_le
      fun heq => h ((Text.trim_sublist s).eq_of_length heq)

/-- A keyword without wildcards, in one source and a range of sequences. -/
def plainFilter : EventQuery :=
  { EventQuery.default with
    seqFrom := some 5, seqTo := some 10, sources := ["server/server.log"]
    keyword := some "timeout" }

theorem filter_faithful_plain :
    ReadingsAgree asciiLowercase plainFilter
      [.seqAtLeast 5, .seqAtMost 10, .sourceIn ["server/server.log"],
        .messageLike "%timeout%".toList] ∧
    NeighborhoodsAgree asciiLowercase plainFilter
      [.seqAtLeast 5, .seqAtMost 10, .sourceIn ["server/server.log"],
        .messageLike "%timeout%".toList] := by
  refine (filter_faithful_iff rfl).mpr (.inr (.inr (.inr ⟨⟨?_, ?_⟩, .inr ⟨?_, ?_⟩⟩)))
  · rintro lo ⟨⟩
    decide
  · rintro hi ⟨⟩
    decide
  · intro level hmem
    cases hmem
  · rintro keyword ⟨⟩
    exact .inr ⟨by decide, by simp [Sql.isWild]⟩

def errorRow : EventRow where
  seq := 7
  ts := 1614912833
  level := "ERROR"
  service := none
  host := none
  templateId := 3
  params := []
  traceId := none
  message := "disk-full"
  source := "server/server.log"
  original := none
  timestampProvenance := some .explicitWallClock
  activeTimestampBasis := some .explicitWall
  unresolvedLocalTimestamp := none

def levelFilter : EventQuery := { EventQuery.default with levels := ["error"] }

def wildFilter : EventQuery := { EventQuery.default with keyword := some "disk_full" }

def paddedFilter : EventQuery := { EventQuery.default with keyword := some "disk-full " }

/-- What a neighborhood of `errorRow` says of its target, and how many rows the filter selects. -/
def errorNeighborhood (f : EventQuery) : CoreResult (TargetResolveStatus × Nat) := do
  let n ← queryEventNeighborhood asciiLowercase
    { targetSeq := 7, before := 5, after := 5, filter := f, sortByTime := true } .wall [errorRow]
  pure (n.status, n.totalMatched)

/-- A level in another case and a padded keyword find a target that the filter does not select, and
a keyword with a wildcard hides one that it selects. -/
theorem neighborhood_contradicts_filter :
    errorNeighborhood levelFilter = .ok (.found, 0) ∧
    errorNeighborhood paddedFilter = .ok (.found, 0) ∧
    errorNeighborhood wildFilter = .ok (.hiddenByFilter, 1) ∧
    (∃ clauses, buildWhere asciiLowercase levelFilter = .ok clauses ∧
      ¬ ReadingsAgree asciiLowercase levelFilter clauses) := by
  refine ⟨by decide, by decide, by decide, [.levelIn ["error"]], by decide, fun h => ?_⟩
  have := h errorRow _ ⟨by decide, by decide, by decide, by decide⟩ rfl
  revert this
  decide

end ContextDesk.LogAnalysis
