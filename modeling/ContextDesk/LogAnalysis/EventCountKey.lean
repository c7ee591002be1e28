import ContextDesk.Lib.Str
import ContextDesk.LogAnalysis.EventCount

/-!
# Keys of cached counts

The digest of a cached count is taken of the text of the `WHERE` clause and of its bound values.
Two filters with one key have the same conditions (`CountRequest.clauses_of_key`): the text falls
apart at its ` AND `s, each part tells how many values it binds, and a part and its values are the
condition (`Clause.read_sql`).
-/

namespace ContextDesk.LogAnalysis

open Lib List
open Lib.Utf8 (textBytes textBytes_inj)

/-- The conditions of a filter: no cursor, and one list of bases. -/
def Clause.IsFilter : Clause → Prop
  | afterKey _ _ | beforeKey _ _ | seqAfter _ | seqBefore _ => False
  | basisIn values => values = [.explicitWall, .resolvedLocal]
  | _ => True

/-! ## One condition -/

theorem mem_placeholders {n : Nat} {c : Char} (h : c ∈ placeholders n) : c = '?' ∨ c = ',' := by
  induction n using placeholders.induct with
  | case1 => cases h
  | case2 => exact .inl (mem_singleton.mp h)
  | case3 n ih =>
    rcases mem_cons.mp h with rfl | h
    · exact .inl rfl
    · rcases mem_cons.mp h with rfl | h
      · exact .inr rfl
      · exact ih h

theorem count_placeholders (n : Nat) : (placeholders n).count '?' = n := by
  induction n using placeholders.induct with
  | case1 => rfl
  | case2 => rfl
  | case3 n ih =>
    rw [placeholders, count_cons_self, count_cons_of_ne (by decide), ih]

theorem inList_no_D {column : String} (h : 'D' ∉ column.toList) (n : Nat) :
    'D' ∉ inList column n := by
  have hplaceholders : 'D' ∉ placeholders n := by
    intro hD
    rcases mem_placeholders hD with hD | hD <;> cases hD
  simp [inList, h, hplaceholders]

theorem count_inList {column : String} (h : column.toList.count '?' = 0) (n : Nat) :
    (inList column n).count '?' = n := by
  unfold inList
  rw [count_append, count_append, count_cons_of_ne (by decide), h,
    count_placeholders, Nat.zero_add]
  rfl

variable {c : Clause}

theorem Clause.IsFilter.sql_no_D (h : c.IsFilter) : 'D' ∉ c.sql := by
  cases c with
  | templateIn | templateNotIn | levelIn | sourceIn | serviceIn | hostIn =>
    exact inList_no_D (by decide) _
  | basisIn values =>
    rw [show values = [.explicitWall, .resolvedLocal] from h]
    decide
  | afterKey | beforeKey | seqAfter | seqBefore => exact h.elim
  | _ => exact of_decide_eq_true rfl

theorem Clause.IsFilter.length_binds (h : c.IsFilter) : c.binds.length = c.sql.count '?' := by
  cases c with
  | templateIn values | templateNotIn values | levelIn values | sourceIn values
  | serviceIn values | hostIn values =>
    exact (length_map _).trans (count_inList (by decide) _).symm
  | basisIn values =>
    rw [show values = [.explicitWall, .resolvedLocal] from h]
    decide
  | afterKey | beforeKey | seqAfter | seqBefore => exact h.elim
  | _ => rfl

def Value.int? : Value → Option Int
  | bigInt value => some value
  | text _ => none

def Value.text? : Value → Option String
  | bigInt _ => none
  | text value => some value

/-- The start of a condition, and the condition with its values. -/
def Clause.readers : List (String × (List Value → Option Clause)) :=
  [("ts >= ", fun binds => (binds.filterMap Value.int?).head?.map tsAtLeast),
   ("ts < ", fun binds => (binds.filterMap Value.int?).head?.map tsBefore),
   ("seq >= ", fun binds => (binds.filterMap Value.int?).head?.map seqAtLeast),
   ("seq <= ", fun binds => (binds.filterMap Value.int?).head?.map seqAtMost),
   ("template_id = ", fun binds => (binds.filterMap Value.int?).head?.map templateIs),
   ("template_id IN ", fun binds => some (templateIn (binds.filterMap Value.int?))),
   ("template_id NOT IN ", fun binds => some (templateNotIn (binds.filterMap Value.int?))),
   ("level IN ", fun binds => some (levelIn (binds.filterMap Value.text?))),
   ("source IN ", fun binds => some (sourceIn (binds.filterMap Value.text?))),
   ("COALESCE(service", fun binds => some (serviceIn (binds.filterMap Value.text?))),
   ("COALESCE(host", fun binds => some (hostIn (binds.filterMap Value.text?))),
   ("trace_id = ", fun binds => (binds.filterMap Value.text?).head?.map traceIs),
   ("lower(message)", fun binds =>
     (binds.filterMap Value.text?).head?.map fun pattern => messageLike pattern.toList),
   ("active_timestamp_basis", fun _ => some (basisIn [.explicitWall, .resolvedLocal]))]

def Clause.read (sql : List Char) (binds : List Value) : Option Clause :=
  (readers.find? fun reader => reader.1.toList.isPrefixOf sql).bind fun reader => reader.2 binds

theorem filterMap_int (values : List Int) :
    (values.map Value.bigInt).filterMap Value.int? = values := by
  rw [filterMap_map]
  exact filterMap_some

theorem filterMap_text (values : List String) :
    (values.map Value.text).filterMap Value.text? = values := by
  rw [filterMap_map]
  exact filterMap_some

/-- A condition is read back from its text and its values. -/
theorem Clause.read_sql (h : c.IsFilter) : read c.sql c.binds = some c := by
  cases c with
  | templateIn values =>
    show some (templateIn ((values.map Value.bigInt).filterMap Value.int?)) = _
    rw [filterMap_int]
  | templateNotIn values =>
    show some (templateNotIn ((values.map Value.bigInt).filterMap Value.int?)) = _
    rw [filterMap_int]
  | levelIn values =>
    show some (levelIn ((values.map Value.text).filterMap Value.text?)) = _
    rw [filterMap_text]
  | sourceIn values =>
    show some (sourceIn ((values.map Value.text).filterMap Value.text?)) = _
    rw [filterMap_text]
  | serviceIn values =>
    show some (serviceIn ((values.map Value.text).filterMap Value.text?)) = _
    rw [filterMap_text]
  | hostIn values =>
    show some (hostIn ((values.map Value.text).filterMap Value.text?)) = _
    rw [filterMap_text]
  | messageLike pattern =>
    show some (messageLike (String.ofList pattern).toList) = _
    rw [String.toList_ofList]
  | basisIn values =>
    rw [show values = [.explicitWall, .resolvedLocal] from h]
    rfl
  | afterKey | beforeKey | seqAfter | seqBefore => exact h.elim
  | _ => rfl

/-! ## A whole filter -/

variable {clauses : List Clause}

theorem map_sql_of_whereSql {clauses' : List Clause} (h : ∀ c ∈ clauses, c.IsFilter)
    (h' : ∀ c ∈ clauses', c.IsFilter) (heq : whereSql clauses = whereSql clauses') :
    clauses.map Clause.sql = clauses'.map Clause.sql := by
  have hcut := append_cancel_left (String.ofList_injective heq)
  have hno : ∀ clauses : List Clause, (∀ c ∈ clauses, c.IsFilter) →
      ∀ t ∈ clauses.map Clause.sql, 'D' ∉ t := by
    intro clauses h t ht
    obtain ⟨c, hc, rfl⟩ := mem_map.mp ht
    exact (h c hc).sql_no_D
  have hjoined : ((clauses.map Clause.sql).flatMap fun t =>
        " AN".toList ++ 'D' :: " ".toList ++ t) =
      (clauses'.map Clause.sql).flatMap fun t => " AN".toList ++ 'D' :: " ".toList ++ t := by
    rw [flatMap_map, flatMap_map]
    exact hcut
  exact Str.flatMap_separated_inj (by decide) (hno clauses h) (hno clauses' h') hjoined

theorem clauses_inj {clauses' : List Clause} (h : ∀ c ∈ clauses, c.IsFilter)
    (h' : ∀ c ∈ clauses', c.IsFilter) (hsql : clauses.map Clause.sql = clauses'.map Clause.sql)
    (hbinds : whereBinds clauses = whereBinds clauses') : clauses = clauses' := by
  induction clauses generalizing clauses' with
  | nil => exact (map_eq_nil_iff.mp hsql.symm).symm
  | cons c clauses ih =>
    rcases clauses' with _ | ⟨c', clauses'⟩
    · cases hsql
    · rw [map_cons, map_cons, cons.injEq] at hsql
      have hc := h c mem_cons_self
      have hc' := h' c' mem_cons_self
      have hlen : c.binds.length = c'.binds.length := by
        rw [hc.length_binds, hc'.length_binds, hsql.1]
      unfold whereBinds at hbinds
      rw [flatMap_cons, flatMap_cons] at hbinds
      obtain ⟨hb, hrest⟩ := append_inj hbinds hlen
      have hread := Clause.read_sql hc
      rw [hsql.1, hb, Clause.read_sql hc'] at hread
      rw [Option.some.inj hread, ih (fun c hc => h c (mem_cons_of_mem _ hc))
        (fun c hc => h' c (mem_cons_of_mem _ hc)) hsql.2 hrest]

variable {lc : Lowercase}

theorem keywordClause_isFilter {keyword : Option String} :
    ∀ c ∈ keywordClause lc keyword, c.IsFilter := by
  intro c hc
  unfold keywordClause at hc
  split at hc
  · cases hc
  · split at hc
    · cases hc
    · rw [mem_singleton.mp hc]
      trivial

theorem clauseUnlessEmpty_isFilter {α : Type} {l : List α} (h : c.IsFilter) :
    ∀ c' ∈ clauseUnlessEmpty l c, c'.IsFilter := by
  intro c' hc'
  unfold clauseUnlessEmpty at hc'
  split at hc'
  · cases hc'
  · rw [mem_singleton.mp hc']
    exact h

theorem toList_map_isFilter {α : Type} {o : Option α} {f : α → Clause} (h : ∀ a, (f a).IsFilter) :
    ∀ c ∈ o.toList.map f, c.IsFilter := by
  intro c hc
  obtain ⟨a, -, rfl⟩ := mem_map.mp hc
  exact h a

theorem buildWhere_isFilter {q : EventQuery} (h : buildWhere lc q = .ok clauses) :
    ∀ c ∈ clauses, c.IsFilter := by
  simp only [buildWhere, bind_ok, pure_ok] at h
  obtain ⟨-, -, excluded, -, rfl⟩ := h
  have hwall : ∀ c ∈ (if q.wallTimeOnly then [Clause.basisIn [.explicitWall, .resolvedLocal]]
      else []), c.IsFilter := by
    intro c hc
    split at hc
    · rw [mem_singleton.mp hc]
      rfl
    · cases hc
  have happ : ∀ {l l' : List Clause}, (∀ c ∈ l, c.IsFilter) → (∀ c ∈ l', c.IsFilter) →
      ∀ c ∈ l ++ l', c.IsFilter := fun hl hl' => forall_mem_append.mpr ⟨hl, hl'⟩
  have hopt : ∀ {α : Type} {o : Option α} {f : α → Clause}, (∀ a, (f a).IsFilter) →
      ∀ c ∈ o.toList.map f, c.IsFilter := toList_map_isFilter
  refine happ (happ (happ (happ (happ (happ (happ (happ (happ (happ (happ (happ (happ ?_ ?_) ?_)
    ?_) ?_) ?_) ?_) ?_) ?_) ?_) ?_) ?_) keywordClause_isFilter) hwall
  · exact hopt fun _ => trivial
  · exact hopt fun _ => trivial
  · exact hopt fun _ => trivial
  · exact hopt fun _ => trivial
  · exact hopt fun _ => trivial
  · exact clauseUnlessEmpty_isFilter trivial
  · exact clauseUnlessEmpty_isFilter trivial
  · exact clauseUnlessEmpty_isFilter trivial
  · exact clauseUnlessEmpty_isFilter trivial
  · exact clauseUnlessEmpty_isFilter trivial
  · exact clauseUnlessEmpty_isFilter trivial
  · exact hopt fun _ => trivial

theorem CountRequest.isFilter (r : CountRequest lc) : ∀ c ∈ r.clauses, c.IsFilter := by
  have h := r.built
  simp only [buildWhereWithAdditionalKeyword, bind_ok] at h
  obtain ⟨clauses, hclauses, h⟩ := h
  have hfilter := buildWhere_isFilter hclauses
  split at h
  · rw [← pure_ok.mp h]
    exact hfilter
  · split at h
    · rw [← pure_ok.mp h]
      exact hfilter
    · rw [← pure_ok.mp h]
      refine forall_mem_append.mpr ⟨hfilter, fun c hc => ?_⟩
      rw [mem_singleton.mp hc]
      trivial

/-! ## Keys -/

def Value.Fits : Value → Prop
  | bigInt value => -2 ^ 63 ≤ value ∧ value < 2 ^ 63
  | text value => value.utf8ByteSize < 2 ^ 64

def Value.tag : Value → UInt8
  | bigInt _ => 0
  | text _ => 1

def Value.payload : Value → List UInt8
  | bigInt value => beBytes 8 (value % 2 ^ 64).toNat
  | text value => sized (beBytes 8) (textBytes value)

theorem Value.bytes_eq (v : Value) : v.bytes = v.tag :: v.payload := by
  cases v <;> rfl

theorem Value.bytes_delimited : Delimited Value.Fits Value.bytes := by
  have htagged : Delimited Value.Fits fun v => v.tag :: v.payload := by
    refine Delimited.tagged fun t => ?_
    rintro (a | a) (b | b) x y ⟨ha, hta⟩ ⟨hb, htb⟩ heq
    · have hlt : ∀ v : Int, (v % 2 ^ 64).toNat < 256 ^ 8 := by
        intro v
        omega
      obtain ⟨hnat, hxy⟩ := beBytes_delimited 8 (hlt a) (hlt b) heq
      obtain ⟨ha, ha'⟩ := ha
      obtain ⟨hb, hb'⟩ := hb
      refine ⟨congrArg _ ?_, hxy⟩
      omega
    · exact absurd (hta.trans htb.symm) (show (0 : UInt8) ≠ 1 by decide)
    · exact absurd (hta.trans htb.symm) (show (1 : UInt8) ≠ 0 by decide)
    · obtain ⟨hbytes, hxy⟩ := (beBytes_delimited 8).sized ha hb heq
      exact ⟨congrArg _ (textBytes_inj hbytes), hxy⟩
  intro a b x y ha hb heq
  rw [a.bytes_eq, b.bytes_eq] at heq
  exact htagged ha hb heq

theorem eventCountCacheKey_inj {sha256 : List UInt8 → List UInt8}
    (hsha : Function.Injective sha256) {sql sql' : String} {binds binds' : List Value}
    (hsql : sql.utf8ByteSize < 256 ^ 8) (hsql' : sql'.utf8ByteSize < 256 ^ 8)
    (hbinds : binds.length < 256 ^ 8 ∧ ∀ v ∈ binds, v.Fits)
    (hbinds' : binds'.length < 256 ^ 8 ∧ ∀ v ∈ binds', v.Fits)
    (h : eventCountCacheKey sha256 sql binds = eventCountCacheKey sha256 sql' binds') :
    sql = sql' ∧ binds = binds' := by
  have hd := (beBytes_delimited 8).sized.pair
    (Value.bytes_delimited.counted (beBytes_delimited 8))
  have hpair := hd.inj (a := (textBytes sql, binds)) (b := (textBytes sql', binds'))
    ⟨hsql, hbinds⟩ ⟨hsql', hbinds'⟩ (hsha (congrArg EventCountCacheKey.digest h))
  rw [Prod.mk.injEq] at hpair
  exact ⟨textBytes_inj hpair.1, hpair.2⟩

theorem CountRequest.clauses_of_key {sha256 : List UInt8 → List UInt8}
    (hsha : Function.Injective sha256) {r r' : CountRequest lc} (h : r.key sha256 = r'.key sha256) :
    r.clauses = r'.clauses := by
  have hfits : ∀ r : CountRequest lc, ∀ v ∈ whereBinds r.clauses, v.Fits := by
    rintro r (value | value) hv
    · exact r.integersFit value hv
    · exact r.textsFit value hv
  obtain ⟨hsql, hbinds⟩ := eventCountCacheKey_inj hsha r.sqlFits r'.sqlFits
    ⟨r.countFits, hfits r⟩ ⟨r'.countFits, hfits r'⟩ h
  exact clauses_inj r.isFilter r'.isFilter (map_sql_of_whereSql r.isFilter r'.isFilter hsql) hbinds

end ContextDesk.LogAnalysis
