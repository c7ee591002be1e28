import ContextDesk.LogAnalysis.ChronologyPages
import ContextDesk.LogAnalysis.CorpusClock

/-!
# Pages while the corpus changes

Any number of page requests run while events are appended, revised and restored. A request reads
the clock, then the counts, then its rows, and each reading is a step of its own: `PagingSystem`
is such a system, `PagingAction.apply` one step of it. Answered requests are kept with the table
that their rows came from.

A cursor is compared with the clock, and the rows are read later under the connection. `Steady`
says that nothing was committed in between. `PagingSystem.Sound` is the invariant of runs whose
steps are steady, and `Continues.window` what it means for a sequence of pages: they are windows
of one table that follow each other.
-/

namespace ContextDesk.LogAnalysis

open Lib List Function

/-! ## The system -/

structure PageRequest where
  query : ChronologyQuery
  /-- The number of answers when it was accepted. -/
  began : Nat
  request : ChronologyRequest
  counts : Option (Nat × Nat)

structure PageAnswer where
  query : ChronologyQuery
  began : Nat
  /-- The revision that the request read. -/
  revision : Nat
  /-- The table that the rows were read from, under its own revision. -/
  table : Nat × List EventRow
  page : ChronologyPage

structure PagingSystem where
  corpus : SharedCorpus
  requests : Nat → Option PageRequest
  answers : List PageAnswer

inductive PagingAction where
  /-- A request reads the clock and checks its cursor. -/
  | ask (id : Nat) (q : ChronologyQuery)
  /-- The count query of a request, under the connection. -/
  | count (id : Nat)
  /-- The page query of a request, under the connection. -/
  | fetch (id : Nat)
  | commit (op : RevisionOp)
  | publish

def PagingSystem.opened (db : CorpusDb) : PagingSystem where
  corpus := .opened db
  requests _ := none
  answers := []

def PagingSystem.ask (sha256 : List UInt8 → String) (id : Nat) (q : ChronologyQuery)
    (s : PagingSystem) : PagingSystem :=
  match s.requests id, beginChronology sha256 q s.corpus.clock with
  | none, .ok request =>
    { s with
      requests := update s.requests id (some ⟨q, s.answers.length, request, none⟩) }
  | _, _ => s

def PagingSystem.count (lc : Lowercase) (id : Nat) (s : PagingSystem) : PagingSystem :=
  match s.requests id, s.corpus.committed with
  | some ⟨q, began, request, none⟩, false =>
    { s with
      requests := update s.requests id
        (some ⟨q, began, request, countChronology lc request.filter s.corpus.db.events⟩) }
  | _, _ => s

def PagingSystem.fetch (lc : Lowercase) (id : Nat) (s : PagingSystem) : PagingSystem :=
  match s.requests id, s.corpus.committed with
  | some ⟨q, began, request, some counts⟩, false =>
    { s with
      requests := update s.requests id none
      answers := s.answers ++
        match fetchChronology lc request counts s.corpus.db.events with
        | .ok page => [⟨q, began, request.revision, s.corpus.db.published, page⟩]
        | .error _ => [] }
  | _, _ => s

def PagingAction.apply (lc : Lowercase) (sha256 : List UInt8 → String) (s : PagingSystem) :
    PagingAction → PagingSystem
  | ask id q => s.ask sha256 id q
  | count id => s.count lc id
  | fetch id => s.fetch lc id
  | commit op => { s with corpus := s.corpus.commit op }
  | publish => { s with corpus := s.corpus.publish }

/-- The system after an interleaving of actions. -/
def PagingSystem.run (lc : Lowercase) (sha256 : List UInt8 → String) (s : PagingSystem)
    (actions : List PagingAction) : PagingSystem :=
  actions.foldl (fun s action => action.apply lc sha256 s) s

/-- Every write leaves each event a sequence of its own. -/
def PagingAction.KeepsSequences (s : PagingSystem) : PagingAction → Prop
  | commit op => Sequenced (op.run s.corpus.db).events
  | _ => True

/-- When the rows after a cursor are read, the stored revision is the one of the cursor. -/
def PagingAction.Steady (s : PagingSystem) : PagingAction → Prop
  | fetch id => s.corpus.committed = false → ∀ r ∈ s.requests id, ∀ c ∈ r.query.after,
      s.corpus.db.state.currentRevision = c.revision
  | _ => True

instance keepsSequencesDecidable (s : PagingSystem) :
    ∀ action : PagingAction, Decidable (action.KeepsSequences s)
  | .commit op => inferInstanceAs (Decidable (Sequenced (op.run s.corpus.db).events))
  | .ask _ _ | .count _ | .fetch _ | .publish => inferInstanceAs (Decidable True)

instance steadyDecidable (s : PagingSystem) :
    ∀ action : PagingAction, Decidable (action.Steady s)
  | .fetch id => inferInstanceAs (Decidable (s.corpus.committed = false →
      ∀ r ∈ s.requests id, ∀ c ∈ r.query.after, s.corpus.db.state.currentRevision = c.revision))
  | .ask _ _ | .count _ | .commit _ | .publish => inferInstanceAs (Decidable True)

def PagingSystem.Along (lc : Lowercase) (sha256 : List UInt8 → String)
    (P : PagingSystem → PagingAction → Prop) : PagingSystem → List PagingAction → Prop
  | _, [] => True
  | s, action :: actions =>
    P s action ∧ PagingSystem.Along lc sha256 P (action.apply lc sha256 s) actions

instance alongDecidable (lc : Lowercase) (sha256 : List UInt8 → String)
    (P : PagingSystem → PagingAction → Prop) [∀ s action, Decidable (P s action)] :
    ∀ (s : PagingSystem) (actions : List PagingAction),
      Decidable (PagingSystem.Along lc sha256 P s actions)
  | _, [] => inferInstanceAs (Decidable True)
  | s, action :: actions =>
    have := alongDecidable lc sha256 P (action.apply lc sha256 s) actions
    inferInstanceAs (Decidable (P s action ∧ _))

/-- The answers that follow each other's cursors, from a first page on; the last one is answer
`i`. A request comes after the answer whose cursor it carries. -/
inductive Continues (answers : List PageAnswer) : List PageAnswer → Nat → Prop
  | first {i : Nat} {a : PageAnswer} (ha : answers[i]? = some a) (hfirst : a.query.after = none) :
      Continues answers [a] i
  | next {i j : Nat} {a b : PageAnswer} {pages : List PageAnswer} (h : Continues answers pages i)
      (ha : answers[i]? = some a) (hb : answers[j]? = some b) (hlater : i < b.began)
      (hcursor : b.query.after = a.page.nextCursor) (hsome : a.page.nextCursor ≠ none) :
      Continues answers (pages ++ [b]) j

/-! ## The invariant -/

variable {lc : Lowercase} {sha256 : List UInt8 → String}

/-- Counts of a table that was published since the request read the clock. -/
def CountsSince (lc : Lowercase) (timeline : List (Nat × List EventRow))
    (request : ChronologyRequest) (counts : Nat × Nat) (upTo : Nat) : Prop :=
  ∃ e ∈ timeline, counts = countChronology lc request.filter e.2 ∧
    request.revision ≤ e.1 ∧ e.1 ≤ upTo

structure PageRequest.Sound (lc : Lowercase) (sha256 : List UInt8 → String) (s : PagingSystem)
    (r : PageRequest) : Prop where
  accepted : beginChronology sha256 r.query r.request.revision = .ok r.request
  read : r.request.revision ≤ s.corpus.clock
  began : r.began ≤ s.answers.length
  earlier : ∀ k a, k < r.began → s.answers[k]? = some a → a.table.1 ≤ r.request.revision
  counted : ∀ counts ∈ r.counts,
    CountsSince lc s.corpus.timeline r.request counts s.corpus.clock

structure PageAnswer.Sound (lc : Lowercase) (sha256 : List UInt8 → String) (s : PagingSystem)
    (a : PageAnswer) : Prop where
  table : a.table ∈ s.corpus.timeline
  read : a.revision ≤ a.table.1
  began : a.began ≤ s.answers.length
  earlier : ∀ k b, k < a.began → s.answers[k]? = some b → b.table.1 ≤ a.revision
  steady : ∀ c ∈ a.query.after, a.table.1 = c.revision
  fetched : ∃ request counts, beginChronology sha256 a.query a.revision = .ok request ∧
    fetchChronology lc request counts a.table.2 = .ok a.page ∧
    CountsSince lc s.corpus.timeline request counts a.table.1

structure PagingSystem.Sound (lc : Lowercase) (sha256 : List UInt8 → String) (s : PagingSystem) :
    Prop where
  coherent : s.corpus.Coherent
  stored : Sequenced s.corpus.db.events
  sequenced : ∀ e ∈ s.corpus.timeline, Sequenced e.2
  requests : ∀ id r, s.requests id = some r → r.Sound lc sha256 s
  answers : ∀ a ∈ s.answers, a.Sound lc sha256 s

theorem CountsSince.mono {timeline timeline' : List (Nat × List EventRow)}
    {request : ChronologyRequest} {counts : Nat × Nat} {m n : Nat}
    (h : CountsSince lc timeline request counts m) (ht : timeline <+: timeline') (hmn : m ≤ n) :
    CountsSince lc timeline' request counts n := by
  obtain ⟨e, he, hcounts, hge, hle⟩ := h
  exact ⟨e, ht.subset he, hcounts, hge, by omega⟩

/-- The system has more past: published tables and answers stay. -/
structure PagingSystem.Extends (s s' : PagingSystem) : Prop where
  clock : s.corpus.clock ≤ s'.corpus.clock
  timeline : s.corpus.timeline <+: s'.corpus.timeline
  answers : s.answers <+: s'.answers

variable {s s' : PagingSystem} {a : PageAnswer}

theorem PagingSystem.Extends.earlier (h : s.Extends s') {k n : Nat} (hn : n ≤ s.answers.length)
    (hk : k < n) (ha : s'.answers[k]? = some a) : s.answers[k]? = some a := by
  obtain ⟨rest, hrest⟩ := h.answers
  rw [← hrest, getElem?_append_left (by omega)] at ha
  exact ha

theorem PageRequest.Sound.mono {r : PageRequest} (h : r.Sound lc sha256 s) (hs : s.Extends s') :
    r.Sound lc sha256 s' :=
  ⟨h.accepted, h.read.trans hs.clock, h.began.trans hs.answers.length_le,
    fun k a hk ha => h.earlier k a hk (hs.earlier h.began hk ha),
    fun counts hc => (h.counted counts hc).mono hs.timeline hs.clock⟩

theorem PageAnswer.Sound.mono (h : a.Sound lc sha256 s) (hs : s.Extends s') :
    a.Sound lc sha256 s' := by
  obtain ⟨request, counts, hbegin, hfetch, hcounts⟩ := h.fetched
  exact ⟨hs.timeline.subset h.table, h.read, h.began.trans hs.answers.length_le,
    fun k b hk hb => h.earlier k b hk (hs.earlier h.began hk hb), h.steady,
    request, counts, hbegin, hfetch, hcounts.mono hs.timeline (Nat.le_refl _)⟩

/-! ## One step -/

theorem PagingSystem.Sound.opened {db : CorpusDb} (h : Sequenced db.events) :
    (PagingSystem.opened db).Sound lc sha256 := by
  refine ⟨.opened db, h, fun e he => ?_, fun id r hr => (by cases hr), fun a ha => (by cases ha)⟩
  rw [mem_singleton.mp he]
  exact h

theorem PagingSystem.Sound.update (h : s.Sound lc sha256) {id : Nat} {r : PageRequest}
    (hr : r.Sound lc sha256 s) :
    ({ s with requests := Function.update s.requests id (some r) } : PagingSystem).Sound
      lc sha256 := by
  have hext : s.Extends { s with requests := Function.update s.requests id (some r) } :=
    ⟨Nat.le_refl _, prefix_refl _, prefix_refl _⟩
  refine ⟨h.coherent, h.stored, h.sequenced, fun id' r' hr' => ?_, fun a ha => ?_⟩
  · by_cases hid : id' = id
    · subst hid
      obtain rfl := Option.some.inj ((update_self id' _ s.requests).symm.trans hr')
      exact hr.mono hext
    · exact (h.requests id' r' ((update_of_ne hid _ s.requests).symm.trans hr')).mono hext
  · exact (h.answers a ha).mono hext

theorem PagingSystem.Sound.ask (h : s.Sound lc sha256) (id : Nat) (q : ChronologyQuery) :
    (s.ask sha256 id q).Sound lc sha256 := by
  unfold PagingSystem.ask
  split
  · rename_i request hnone hbegin
    obtain ⟨-, -, -, hrevision, -⟩ := beginChronology_ok hbegin
    refine h.update ⟨?_, Nat.le_of_eq hrevision, Nat.le_refl _, fun k a hk ha => ?_,
      fun counts hc => (by cases hc)⟩
    · show beginChronology sha256 q request.revision = .ok request
      rw [hrevision]
      exact hbegin
    · show a.table.1 ≤ request.revision
      rw [hrevision]
      exact h.coherent.le_clock (h.answers a (mem_of_getElem? ha)).table
  · exact h

theorem PagingSystem.Sound.count (h : s.Sound lc sha256) (id : Nat) :
    (s.count lc id).Sound lc sha256 := by
  unfold PagingSystem.count
  split
  · rename_i q began request hr hfree
    have hs := h.requests id _ hr
    refine h.update ⟨hs.accepted, hs.read, hs.began, hs.earlier, fun counts hc => ?_⟩
    obtain rfl := Option.some.inj hc
    have hclock := h.coherent.clock_eq hfree
    refine ⟨s.corpus.db.published, h.coherent.mem_timeline hfree, rfl, ?_, ?_⟩
    · show request.revision ≤ s.corpus.db.state.currentRevision
      exact hclock ▸ hs.read
    · exact Nat.le_of_eq hclock.symm
  · exact h

theorem PagingSystem.Sound.fetch (h : s.Sound lc sha256) {id : Nat}
    (hsteady : (PagingAction.fetch id).Steady s) : (s.fetch lc id).Sound lc sha256 := by
  unfold PagingSystem.fetch
  split
  · rename_i q began request counts hr hfree
    have hs := h.requests id _ hr
    have hclock := h.coherent.clock_eq hfree
    -- the answered request leaves, the others stay
    have hrest : ∀ id' r, Function.update s.requests id none id' = some r →
        s.requests id' = some r := by
      intro id' r hid
      by_cases heq : id' = id
      · subst heq
        rw [update_self] at hid
        cases hid
      · rwa [update_of_ne heq] at hid
    have hext : ∀ answers, s.Extends { s with
        requests := Function.update s.requests id none
        answers := s.answers ++ answers } :=
      fun _ => ⟨Nat.le_refl _, prefix_refl _, prefix_append _ _⟩
    refine ⟨h.coherent, h.stored, h.sequenced,
      fun id' r hid => (h.requests id' r (hrest id' r hid)).mono (hext _), fun a ha => ?_⟩
    rcases mem_append.mp ha with ha | ha
    · exact (h.answers a ha).mono (hext _)
    · split at ha
      · rename_i page hpage
        rw [mem_singleton.mp ha]
        refine PageAnswer.Sound.mono (s := s) ⟨h.coherent.mem_timeline hfree, ?_, hs.began,
          hs.earlier, fun c hc => hsteady hfree _ hr c hc, request, counts, hs.accepted, hpage,
          ?_⟩ (hext _)
        · show request.revision ≤ s.corpus.db.state.currentRevision
          exact hclock ▸ hs.read
        · show CountsSince lc s.corpus.timeline request counts s.corpus.db.state.currentRevision
          exact hclock ▸ hs.counted counts rfl
      · cases ha
  · exact h

theorem PagingSystem.Sound.corpus {s : PagingSystem} (h : s.Sound lc sha256) {c : SharedCorpus}
    (hcoherent : c.Coherent) (hstored : Sequenced c.db.events) (hclock : s.corpus.clock ≤ c.clock)
    (htimeline : s.corpus.timeline <+: c.timeline) (hsequenced : ∀ e ∈ c.timeline, Sequenced e.2) :
    ({ s with corpus := c } : PagingSystem).Sound lc sha256 := by
  have hext : s.Extends { s with corpus := c } := ⟨hclock, htimeline, prefix_refl _⟩
  exact ⟨hcoherent, hstored, hsequenced, fun id r hr => (h.requests id r hr).mono hext,
    fun a ha => (h.answers a ha).mono hext⟩

theorem PagingSystem.Sound.apply {s : PagingSystem} (h : s.Sound lc sha256)
    {action : PagingAction} (hkeeps : action.KeepsSequences s) (hsteady : action.Steady s) :
    (action.apply lc sha256 s).Sound lc sha256 := by
  cases action with
  | ask id q => exact h.ask id q
  | count id => exact h.count id
  | fetch id => exact h.fetch hsteady
  | commit op =>
    refine h.corpus (h.coherent.commit op) ?_ (by rw [SharedCorpus.clock_commit])
      (by rw [SharedCorpus.timeline_commit]) (by rw [SharedCorpus.timeline_commit]; exact h.sequenced)
    obtain he | ⟨-, -, he⟩ := s.corpus.commit_cases op
    · rw [he]
      exact h.stored
    · rw [he]
      exact hkeeps
  | publish =>
    refine h.corpus h.coherent.publish ?_ h.coherent.clock_publish s.corpus.timeline_publish ?_
    · unfold SharedCorpus.publish
      split
      · exact h.stored
      · exact h.stored
    · unfold SharedCorpus.publish
      split
      · intro e he
        rcases mem_append.mp he with he | he
        · exact h.sequenced e he
        · rw [mem_singleton.mp he]
          exact h.stored
      · exact h.sequenced

theorem PagingSystem.Sound.run (h : s.Sound lc sha256) {actions : List PagingAction}
    (hkeeps : s.Along lc sha256 (fun s action => action.KeepsSequences s) actions)
    (hsteady : s.Along lc sha256 (fun s action => action.Steady s) actions) :
    (s.run lc sha256 actions).Sound lc sha256 := by
  induction actions generalizing s with
  | nil => exact h
  | cons action actions ih => exact ih (h.apply hkeeps.1 hsteady.1) hkeeps.2 hsteady.2

/-! ## Sequences of pages -/

/-- The cursor of an answer is at its last event, under its revision and filter. -/
def PageAnswer.CursorAt (sha256 : List UInt8 → String) (a : PageAnswer) (r : Option EventRow) :
    Prop :=
  ∀ c ∈ a.page.nextCursor, ∃ r' ∈ r, c = (chronologyEvent r').cursor a.revision
    (chronologyFilterFingerprint sha256 a.query.filter)

/-- An answer shows the events after its position. -/
theorem PageAnswer.Sound.window (h : a.Sound lc sha256 s) (hseq : Sequenced a.table.2)
    {before after : List EventRow}
    (hsplit : chronologyRows lc a.query.filter a.table.2 = before ++ after)
    (hpos : a.query.after = none ∧ before = [] ∨ ∃ r revision fingerprint,
      before.getLast? = some r ∧
        a.query.after = some ((chronologyEvent r).cursor revision fingerprint)) :
    ∃ shown rest, after = shown ++ rest ∧ a.page.events = shown.map chronologyEvent ∧
      (a.page.nextCursor = none ↔ rest = []) ∧ a.CursorAt sha256 (before ++ shown).getLast? := by
  obtain ⟨request, counts, hbegin, hfetch, -⟩ := h.fetched
  obtain ⟨-, hfilter, hlimit, hrevision, hfingerprint, hafter, -⟩ := beginChronology_ok hbegin
  have hcontinues : ContinuesAt lc request a.table.2 before after := by
    rw [ContinuesAt, hfilter, hafter]
    exact ⟨hsplit, hpos⟩
  obtain ⟨page, hpage, hat⟩ := hseq.fetchChronology_eq hcontinues counts
  obtain rfl : a.page = page := Except.ok.inj (hfetch.symm.trans hpage)
  have hone : 1 ≤ request.limit := hlimit ▸ chronologyLimit_pos a.query
  refine ⟨after.take request.limit, after.drop request.limit, (take_append_drop _ _).symm,
    ?_, hat.next_none hone, fun c hc => ?_⟩
  · rw [hat.events, map_take]
  · obtain ⟨r, hr, rfl⟩ := hat.next_some hc
    have hne : after.take request.limit ≠ [] := ne_nil_of_mem (mem_of_getLast? hr)
    refine ⟨r, ?_, by rw [hrevision, hfingerprint]⟩
    rw [getLast?_append_of_ne_nil _ hne]
    exact hr

theorem PageAnswer.Sound.counts {s : PagingSystem} {a : PageAnswer} (h : a.Sound lc sha256 s)
    (hcoherent : s.corpus.Coherent) (hcurrent : a.revision = a.table.1) :
    (a.page.totalMatched, a.page.orderOnlyCount) =
      countChronology lc a.query.filter a.table.2 := by
  obtain ⟨request, counts, hbegin, hfetch, e, he, hcounts, hge, hle⟩ := h.fetched
  obtain ⟨-, hfilter, -, hrevision, -⟩ := beginChronology_ok hbegin
  obtain rfl : e = a.table := hcoherent.table_eq he h.table (by omega)
  simp only [fetchChronology, bind_ok, pure_ok] at hfetch
  obtain ⟨-, -, _, -, hpage⟩ := hfetch
  rw [← hpage, ← hfilter, ← hcounts]
  rfl

theorem PageAnswer.Sound.accepted (hsha : Injective sha256) {b : PageAnswer}
    (ha : a.Sound lc sha256 s) (hb : b.Sound lc sha256 s)
    (hcursor : b.query.after = a.page.nextCursor) (hsome : a.page.nextCursor ≠ none) :
    b.revision = a.revision ∧ b.query.filter = a.query.filter := by
  obtain ⟨c, hc⟩ := Option.ne_none_iff_exists'.mp hsome
  obtain ⟨request, counts, hbegin, hfetch, -⟩ := ha.fetched
  obtain ⟨request', -, hbegin', -⟩ := hb.fetched
  obtain ⟨hvalid, -, -, hrevision, hfingerprint, -⟩ := beginChronology_ok hbegin
  obtain ⟨hvalid', -, -, -, hfingerprint', -, haccept⟩ := beginChronology_ok hbegin'
  obtain ⟨hrev, hfp⟩ := haccept c (hcursor.trans hc)
  -- a cursor is stamped by the request that issues it
  have hstamp : c.revision = a.revision ∧
      c.filterFingerprint = chronologyFilterFingerprint sha256 a.query.filter := by
    simp only [fetchChronology, bind_ok, pure_ok] at hfetch
    obtain ⟨-, -, fetched, -, hpage⟩ := hfetch
    rw [← hpage] at hc
    unfold pageOfChronology at hc
    dsimp only at hc
    split at hc
    · obtain ⟨e, -, rfl⟩ := Option.map_eq_some_iff.mp hc
      exact ⟨hrevision, hfingerprint⟩
    · cases hc
  refine ⟨hrev.symm.trans hstamp.1, fingerprint_inj hsha hvalid' hvalid ?_⟩
  rw [← hfingerprint', ← hfp, hstamp.2]

theorem Continues.mem {answers pages : List PageAnswer} {i : Nat} (h : Continues answers pages i)
    (ha : a ∈ pages) : a ∈ answers := by
  induction h with
  | first hi =>
    rw [mem_singleton.mp ha]
    exact mem_of_getElem? hi
  | next _ _ hb _ _ _ ih =>
    rcases mem_append.mp ha with ha | ha
    · exact ih ha
    · rw [mem_singleton.mp ha]
      exact mem_of_getElem? hb

/-- Answers that follow each other's cursors, as windows of one table. -/
structure PageWindow (lc : Lowercase) (sha256 : List UInt8 → String) (pages : List PageAnswer)
    (last : PageAnswer) : Prop where
  same : ∀ a ∈ pages, a.query.filter = last.query.filter ∧ a.table = last.table
  current : ∀ a ∈ pages, a.revision = a.table.1 ∨ pages = [last]
  shown : ∃ before after, chronologyRows lc last.query.filter last.table.2 = before ++ after ∧
    pages.flatMap (fun a => a.page.events) = before.map chronologyEvent ∧
    (last.page.nextCursor = none ↔ after = []) ∧ last.CursorAt sha256 before.getLast?

/-- Steady answers that follow each other's cursors are windows of one table. -/
theorem Continues.window (hsha : Injective sha256) (hs : s.Sound lc sha256)
    {pages : List PageAnswer} {i : Nat} {last : PageAnswer} (h : Continues s.answers pages i)
    (hlast : s.answers[i]? = some last) : PageWindow lc sha256 pages last := by
  induction h generalizing last with
  | @first i a ha hfirst =>
    obtain rfl : a = last := Option.some.inj (ha.symm.trans hlast)
    have hsound := hs.answers a (mem_of_getElem? ha)
    refine ⟨fun b hb => by rw [mem_singleton.mp hb]; exact ⟨rfl, rfl⟩,
      fun _ _ => .inr rfl, ?_⟩
    obtain ⟨shown, rest, hafter, hevents, hnone, hcursor⟩ :=
      hsound.window (hs.sequenced _ hsound.table) (nil_append _).symm (.inl ⟨hfirst, rfl⟩)
    exact ⟨shown, rest, hafter, by rw [flatMap_singleton, hevents], hnone, hcursor⟩
  | @next i j a b pages h ha hb hlater hcursor hsome ih =>
    obtain rfl : b = last := Option.some.inj (hb.symm.trans hlast)
    obtain ⟨hsame, hcurrent, before, after, hsplit, hshown, -, hat⟩ := ih ha
    have hsa := hs.answers a (mem_of_getElem? ha)
    have hsb := hs.answers b (mem_of_getElem? hb)
    obtain ⟨hrevision, hfilter⟩ := hsa.accepted hsha hsb hcursor hsome
    obtain ⟨c, hc⟩ := Option.ne_none_iff_exists'.mp hsome
    obtain ⟨r, hr, rfl⟩ := hat c hc
    -- the table of the answer is at most as new as the revision read after it
    have hle : a.table.1 ≤ b.revision := hsb.earlier i a hlater ha
    have hge : a.revision ≤ a.table.1 := hsa.read
    have hsteady : b.table.1 = a.revision := hsb.steady _ (hcursor.trans hc)
    have htable : a.table = b.table :=
      hs.coherent.table_eq hsa.table hsb.table (by omega)
    rw [htable, ← hfilter] at hsplit
    obtain ⟨shown, rest, hafter, hevents, hnone, hnext⟩ := hsb.window
      (hs.sequenced _ hsb.table) hsplit (.inr ⟨r, _, _, hr, hcursor.trans hc⟩)
    refine ⟨fun x hx => ?_, fun x hx => ?_, before ++ shown, rest, ?_, ?_, hnone, hnext⟩
    · rcases mem_append.mp hx with hx | hx
      · rw [hfilter, ← htable]
        exact hsame x hx
      · rw [mem_singleton.mp hx]
        exact ⟨rfl, rfl⟩
    · left
      rcases mem_append.mp hx with hx | hx
      · rcases hcurrent x hx with hcur | hone
        · exact hcur
        · -- the only page so far is the one whose cursor is followed
          rw [hone] at hx
          rw [mem_singleton.mp hx]
          omega
      · rw [mem_singleton.mp hx]
        omega
    · rw [hsplit, hafter, append_assoc]
    · rw [flatMap_append, hshown, flatMap_singleton, hevents, map_append]

/-- The counts of every page are those of `events`. -/
def CountsOf (events : List ChronologyEvent) (page : ChronologyPage) : Prop :=
  page.totalMatched = events.length ∧ page.orderOnlyCount = events.countP fun e => !e.isWall

theorem countsOf_chronology {f : ChronologyFilter} {rows : List EventRow} {page : ChronologyPage}
    (h : (page.totalMatched, page.orderOnlyCount) = countChronology lc f rows) :
    CountsOf (chronology lc f rows) page := by
  rw [countChronology_eq, Prod.mk.injEq] at h
  exact h

/-- Over one table the cursors lead through the matching events, each once and in order, and every
page has the full counts. While the corpus changes, a cursor is accepted only under the revision
and the filter that it was issued under; and in a steady run, answers that follow each other's
cursors are windows of one table, without a gap or a repetition. -/
theorem chronology_pages_exact (lc : Lowercase) {sha256 : List UInt8 → String}
    (hsha : Injective sha256) :
    (∀ (rows : List EventRow) (revision : Nat) (q : ChronologyQuery), Sequenced rows →
      q.filter.validate = .ok () → q.after = none →
      ∃ events, Chronological lc q rows events ∧ ∀ fuel, rows.length < fuel → ∃ pages,
        followChronology (fun q => queryChronology lc sha256 q revision rows) fuel q = .ok pages ∧
        pages.flatMap ChronologyPage.events = events ∧ ∀ page ∈ pages, CountsOf events page) ∧
    ∀ (db : CorpusDb) (actions : List PagingAction), Sequenced db.events →
      (PagingSystem.opened db).Along lc sha256 (fun s action => action.KeepsSequences s) actions →
      (PagingSystem.opened db).Along lc sha256 (fun s action => action.Steady s) actions →
      (∀ a ∈ ((PagingSystem.opened db).run lc sha256 actions).answers,
        ∀ b ∈ ((PagingSystem.opened db).run lc sha256 actions).answers,
          b.query.after = a.page.nextCursor → a.page.nextCursor ≠ none →
          b.revision = a.revision ∧ b.query.filter = a.query.filter) ∧
      ∀ pages i last,
        Continues ((PagingSystem.opened db).run lc sha256 actions).answers pages i →
        ((PagingSystem.opened db).run lc sha256 actions).answers[i]? = some last →
        ∃ table ∈ ((PagingSystem.opened db).run lc sha256 actions).corpus.timeline,
          ∃ events, Chronological lc last.query table.2 events ∧
            pages.flatMap (fun a => a.page.events) <+: events ∧
            (last.page.nextCursor = none → pages.flatMap (fun a => a.page.events) = events) ∧
            ∀ a ∈ pages, a.query.filter = last.query.filter ∧
              (1 < pages.length → CountsOf events a.page) := by
  refine ⟨fun rows revision q hrows hvalid hfirst => ?_, fun db actions hdb hkeeps hsteady => ?_⟩
  · refine ⟨_, hrows.chronological lc q, fun fuel hfuel => ?_⟩
    have hlen : (chronologyRows lc q.filter rows).length < fuel := by
      have := length_filter_le (q.filter.matches lc) rows
      rw [chronologyRows, length_insertionSort]
      omega
    obtain ⟨pages, hpages, hflat, hcounts⟩ := hrows.followChronology_at hvalid
      (nil_append _).symm (.inl ⟨hfirst, rfl⟩) hlen
    exact ⟨pages, hpages, hflat, fun p hp => countsOf_chronology (hcounts p hp)⟩
  · have hs := (PagingSystem.Sound.opened hdb).run hkeeps hsteady
    refine ⟨fun a ha b hb hcursor hsome =>
      (hs.answers a ha).accepted hsha (hs.answers b hb) hcursor hsome,
      fun pages i last hpages hlast => ?_⟩
    have hsound := hs.answers last (mem_of_getElem? hlast)
    obtain ⟨hsame, hcurrent, before, after, hsplit, hshown, hnone, -⟩ := hpages.window hsha hs hlast
    refine ⟨last.table, hsound.table, _,
      (hs.sequenced _ hsound.table).chronological lc last.query, ?_, fun hend => ?_,
      fun a ha => ⟨(hsame a ha).1, fun hlong => ?_⟩⟩
    · rw [hshown, chronology, hsplit, map_append]
      exact prefix_append _ _
    · rw [hshown, chronology, hsplit, hnone.mp hend, append_nil]
    · obtain ⟨hfilter, htable⟩ := hsame a ha
      have hread : a.revision = a.table.1 := by
        rcases hcurrent a ha with hread | hone
        · exact hread
        · rw [hone] at hlong
          exact absurd hlong (by simp)
      rw [← htable, ← hfilter]
      exact countsOf_chronology ((hs.answers a (hpages.mem ha)).counts hs.coherent hread)

/-- A digest that tells all byte strings apart. -/
def plainDigest (bytes : List UInt8) : String :=
  String.ofList (bytes.map fun b => Char.ofNat b.toNat)

theorem plainDigest_injective : Injective plainDigest := by
  have hchar : ∀ b : UInt8, (Char.ofNat b.toNat).toNat = b.toNat := by decide +kernel
  intro a b h
  refine map_injective_iff.mpr (fun x y hxy => ?_) (String.ofList_injective h)
  have hnat := congrArg Char.toNat hxy
  rw [hchar, hchar] at hnat
  exact UInt8.toNat_inj.mp hnat

def twoWallEvents : CorpusDb :=
  (RevisionOp.push (.ok ()) [(wallEvent 0 0, none), (wallEvent 1 1, none)]).run .create

theorem sequenced_twoWallEvents : Sequenced twoWallEvents.events :=
  ⟨by decide +kernel, by decide +kernel, by decide +kernel⟩

def firstPage : ChronologyQuery where
  search := none
  sources := []
  limit := 1
  after := none

/-- The rest of the events, after the first one. -/
def secondPage : ChronologyQuery :=
  { firstPage with
    limit := 0
    after := some ⟨1, 0, 0, 0, chronologyFilterFingerprint plainDigest firstPage.filter⟩ }

/-- Two pages, with `between` after the second request has read the clock. -/
def twoPages (between : List PagingAction) : List PagingAction :=
  [.ask 0 firstPage, .count 0, .fetch 0, .ask 1 secondPage] ++ between ++ [.count 1, .fetch 1]

abbrev answersOf (actions : List PagingAction) : List PageAnswer :=
  ((PagingSystem.opened twoWallEvents).run asciiLowercase plainDigest actions).answers

theorem continues_answersOf (actions : List PagingAction) (cursor : ChronologyCursor)
    (h : (answersOf actions).map (fun a => (a.query.after, a.began, a.page.nextCursor)) =
      [(none, 0, some cursor), (some cursor, 1, none)]) :
    ∃ last, (answersOf actions)[1]? = some last ∧ last.page.nextCursor = none ∧
      Continues (answersOf actions) (answersOf actions) 1 := by
  obtain ⟨a, rest, hcons, ha, hrest⟩ := map_eq_cons_iff.mp h
  obtain ⟨b, rest', hcons', hb, hnil⟩ := map_eq_cons_iff.mp hrest
  rw [map_eq_nil_iff.mp hnil] at hcons'
  simp only [Prod.mk.injEq] at ha hb
  rw [hcons, hcons']
  refine ⟨b, rfl, hb.2.2, ?_⟩
  exact .next (.first rfl ha.1) rfl rfl (by rw [hb.2.1]; exact Nat.one_pos)
    (by rw [hb.1, ha.2.2]) (by rw [ha.2.2]; exact Option.some_ne_none _)

theorem chronology_pages_exact_two : ∃ table ∈ ((PagingSystem.opened twoWallEvents).run
      asciiLowercase plainDigest (twoPages [])).corpus.timeline,
    ∃ q events, Chronological asciiLowercase q table.2 events ∧
      (answersOf (twoPages [])).flatMap (fun a => a.page.events) = events := by
  obtain ⟨last, hlast, hend, hpages⟩ := continues_answersOf (twoPages [])
    ⟨1, 0, 0, 0, chronologyFilterFingerprint plainDigest firstPage.filter⟩ (by decide +kernel)
  obtain ⟨table, htable, events, hevents, -, hall, -⟩ :=
    ((chronology_pages_exact asciiLowercase plainDigest_injective).2 twoWallEvents (twoPages [])
      sequenced_twoWallEvents (by decide +kernel) (by decide +kernel)).2 _ _ _ hpages hlast
  exact ⟨table, htable, last.query, events, hevents, hall hend⟩

/-- A revision that is published while the second request runs moves the event of the first page
behind the cursor: the event is shown again. -/
theorem chronology_repeats_event : ∃ actions pages last,
    (PagingSystem.opened twoWallEvents).Along asciiLowercase plainDigest
      (fun s action => action.KeepsSequences s) actions ∧
    Continues (answersOf actions) pages 1 ∧ (answersOf actions)[1]? = some last ∧
    last.page.nextCursor = none ∧
    (pages.flatMap fun a => a.page.events.map ChronologyEvent.seq) = [0, 1, 0] ∧
    pages.map (fun a => a.page.totalMatched) = [2, 2] := by
  obtain ⟨last, hlast, hend, hpages⟩ := continues_answersOf
    (twoPages [.commit (.apply .quiet 1 wallMetadata [wallUpdate]), .publish])
    ⟨1, 0, 0, 0, chronologyFilterFingerprint plainDigest firstPage.filter⟩ (by decide +kernel)
  exact ⟨_, _, last, by decide +kernel, hpages, hlast, hend, by decide +kernel,
    by decide +kernel⟩

end ContextDesk.LogAnalysis
