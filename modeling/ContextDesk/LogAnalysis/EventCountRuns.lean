import ContextDesk.LogAnalysis.EventCountKey

/-!
# Exact counts under any interleaving

`CountingSystem.Sound` is what every interleaving of counts and writes keeps: a call that holds the
connection sees the published table until it leaves, and a cached count is the count of the table
of its revision for every filter with its key. A returned count is therefore the count of a table
that was current while the call ran (`event_counts_exact`). A table is current from the
publication of its revision until the next publication.
-/

namespace ContextDesk.LogAnalysis

open Lib Function

variable {lc : Lowercase} {sha256 : List UInt8 → List UInt8}

/-! ## The invariant -/

def CountStage.Sound (s : CountingSystem lc) (id began : Nat) (r : CountRequest lc) :
    CountStage → Prop
  | .started | .waiting | .failed => True
  | .observed revision | .probing revision =>
    ∃ e, Current s.corpus.timeline began s.now e ∧ e.1 = revision
  | .locked revision | .reprobing revision | .scanning revision =>
    s.holder = some id ∧ revision = s.corpus.clock
  | .scanned revision count | .storing revision count =>
    s.holder = some id ∧ revision = s.corpus.clock ∧ count = r.scan s.corpus.db.events
  | .leaving count => s.holder = some id ∧ count = r.scan s.corpus.db.events
  | .returned ended count =>
    ended ≤ s.now ∧ ∃ e, Current s.corpus.timeline began ended e ∧ count = r.scan e.2

/-- Bounded, and every entry is the count of the table of its revision. -/
structure EventCountCache.Exact (lc : Lowercase) (sha256 : List UInt8 → List UInt8)
    (timeline : List (Nat × List EventRow)) (c : EventCountCache) : Prop where
  sound : RecencyCache.Sound eventCountCacheCap c
  count : ∀ (key : EventCountCacheKey) (entry : CachedEventCount), c.entries.lookup key = some entry →
    ∃ e ∈ timeline, e.1 = entry.revision ∧
      ∀ r : CountRequest lc, r.key sha256 = key → entry.count = r.scan e.2

structure CountingSystem.Sound (sha256 : List UInt8 → List UInt8) (s : CountingSystem lc) :
    Prop where
  coherent : s.corpus.Coherent
  held : s.holder.isSome = true → s.corpus.committed = false
  caches : ∀ handle, (s.caches handle).Exact lc sha256 s.corpus.timeline
  began : ∀ id call, s.calls id = some call → call.began ≤ s.now
  calls : ∀ id call, s.calls id = some call → call.stage.Sound s id call.began call.request

theorem EventCountCache.Exact.empty (timeline : List (Nat × List EventRow)) :
    EventCountCache.Exact lc sha256 timeline .empty :=
  ⟨.empty _, fun key entry h => by cases h⟩

variable {timeline : List (Nat × List EventRow)} {c : EventCountCache}

theorem EventCountCache.Exact.mono {timeline' : List (Nat × List EventRow)}
    (h : c.Exact lc sha256 timeline) (ht : timeline <+: timeline') :
    c.Exact lc sha256 timeline' := by
  refine ⟨h.sound, fun key entry hentry => ?_⟩
  obtain ⟨e, he, hcount⟩ := h.count key entry hentry
  exact ⟨e, ht.subset he, hcount⟩

/-! ## Probes -/

theorem EventCountCache.get_some {key : EventCountCacheKey} {revision n : Nat}
    (h : (c.get key revision).1 = some n) : c.entries.lookup key = some ⟨revision, n⟩ := by
  unfold EventCountCache.get at h
  split at h
  · cases h
  · rename_i entry hentry
    split at h
    · cases h
    · rename_i hrev
      obtain ⟨r, m⟩ := entry
      rw [not_not] at hrev
      cases h
      cases hrev
      exact hentry

theorem EventCountCache.Exact.get (h : c.Exact lc sha256 timeline) (key : EventCountCacheKey)
    (revision : Nat) : (c.get key revision).2.Exact lc sha256 timeline := by
  unfold EventCountCache.get
  split
  · exact h
  · rename_i entry hentry
    split
    · exact ⟨h.sound.remove key, fun k e he => h.count k e (RecencyCache.lookup_remove he)⟩
    · refine ⟨h.sound.touch ?_, h.count⟩
      rw [← AList.lookup_isSome, hentry]
      rfl

theorem EventCountCache.Exact.insert (hsha : Injective sha256)
    (h : c.Exact lc sha256 timeline) {e : Nat × List EventRow} (he : e ∈ timeline)
    (r : CountRequest lc) :
    EventCountCache.Exact lc sha256 timeline
      (c.insert eventCountCacheCap (r.key sha256) ⟨e.1, r.scan e.2⟩) := by
  refine ⟨h.sound.insert _ _, fun key entry hentry => ?_⟩
  rcases RecencyCache.lookup_insert hentry with ⟨rfl, rfl⟩ | hold
  · refine ⟨e, he, rfl, fun r' hr' => ?_⟩
    show r.scan e.2 = r'.scan e.2
    rw [CountRequest.scan, CountRequest.scan, CountRequest.clauses_of_key hsha hr']
  · exact h.count key entry hold

/-! ## The current table -/

theorem SharedCorpus.Coherent.current {c : SharedCorpus} (h : c.Coherent) :
    ∃ events, c.timeline[c.timeline.length - 1]? = some (c.clock, events) := by
  obtain ⟨events, hlast⟩ := h.last
  exact ⟨events, List.getLast?_eq_getElem?.symm.trans hlast⟩

theorem SharedCorpus.Coherent.current_free {c : SharedCorpus} (h : c.Coherent)
    (hfree : c.committed = false) : c.timeline[c.timeline.length - 1]? = some c.db.published :=
  List.getLast?_eq_getElem?.symm.trans (h.free hfree)

theorem SharedCorpus.Coherent.eventRevision {c : SharedCorpus} (h : c.Coherent)
    (hfree : c.committed = false) (readable : Bool) :
    c.eventRevisionWithConnection readable = (c.clock, c.clock) := by
  have hclock := h.clock_eq hfree
  unfold SharedCorpus.eventRevisionWithConnection
  cases readable
  · simp
  · simp [← hclock]

/-! ## Steps of a call -/

variable {s : CountingSystem lc}

theorem CountStage.Sound.other {id : Nat} {s' : CountingSystem lc} {id' began : Nat} {r : CountRequest lc}
    {stage : CountStage} (h : stage.Sound s id' began r) (hcorpus : s'.corpus = s.corpus)
    (hholder : s'.holder = s.holder ∨ s.holder = none ∨ s.holder = some id) (hne : id' ≠ id) :
    stage.Sound s' id' began r := by
  have hnow : s'.now = s.now := by rw [CountingSystem.now, CountingSystem.now, hcorpus]
  have hkeep : s.holder = some id' → s'.holder = some id' := by
    intro hid
    rcases hholder with hsame | hnone | hmine
    · rw [hsame, hid]
    · rw [hid] at hnone
      cases hnone
    · rw [hid] at hmine
      exact absurd (Option.some.inj hmine) hne
  cases stage with
  | started | waiting | failed => trivial
  | observed | probing | returned =>
    unfold CountStage.Sound at h ⊢
    rw [hcorpus, hnow]
    exact h
  | locked | reprobing | scanning | scanned | storing | leaving =>
    unfold CountStage.Sound at h ⊢
    rw [hcorpus]
    exact ⟨hkeep h.1, h.2⟩

/-- A call is put where it may be. -/
theorem CountingSystem.Sound.put {id : Nat} {s' : CountingSystem lc} (h : s.Sound sha256)
    {call : CountCall lc} (hcalls : s'.calls = s.calls) (hcorpus : s'.corpus = s.corpus)
    (hholder : s'.holder = s.holder ∨ s.holder = none ∨ s.holder = some id)
    (hheld : s'.holder.isSome = true → s.corpus.committed = false)
    (hcaches : ∀ handle, (s'.caches handle).Exact lc sha256 s.corpus.timeline)
    (hbegan : call.began ≤ s.now) (hstage : call.stage.Sound s' id call.began call.request) :
    ({ s' with calls := update s'.calls id (some call) } : CountingSystem lc).Sound
      sha256 := by
  have hnow : s'.now = s.now := by rw [CountingSystem.now, CountingSystem.now, hcorpus]
  have hid : ∀ id' call', update s'.calls id (some call) id' = some call' →
      id' = id ∧ call' = call ∨ id' ≠ id ∧ s.calls id' = some call' := by
    intro id' call' hcall'
    by_cases heq : id' = id
    · subst heq
      rw [update_self] at hcall'
      exact .inl ⟨rfl, (Option.some.inj hcall').symm⟩
    · rw [update_of_ne heq, hcalls] at hcall'
      exact .inr ⟨heq, hcall'⟩
  refine ⟨hcorpus ▸ h.coherent, fun hs => hcorpus ▸ hheld hs, fun handle => hcorpus ▸ hcaches handle,
    fun id' call' hcall' => ?_, fun id' call' hcall' => ?_⟩
  · show call'.began ≤ s'.now
    rw [hnow]
    rcases hid id' call' hcall' with ⟨-, rfl⟩ | ⟨-, hold⟩
    · exact hbegan
    · exact h.began id' call' hold
  · rcases hid id' call' hcall' with ⟨rfl, rfl⟩ | ⟨hne, hold⟩
    · exact hstage
    · exact (h.calls id' call' hold).other hcorpus hholder hne

theorem CountingSystem.Sound.read {id : Nat} (h : s.Sound sha256) {call : CountCall lc} {stage : CountStage}
    (hbegan : call.began ≤ s.now) (hstage : stage.Sound s id call.began call.request) :
    (s.move id call stage).Sound sha256 :=
  h.put rfl rfl (.inl rfl) h.held h.caches hbegan hstage

theorem CountingSystem.Sound.hit (h : s.Sound sha256) {e : Nat × List EventRow}
    (he : e ∈ s.corpus.timeline) {handle n : Nat} {r : CountRequest lc}
    (hn : (EventCountCache.get (r.key sha256) e.1 (s.caches handle)).1 = some n) :
    n = r.scan e.2 := by
  obtain ⟨e', he', hrev, hcount⟩ := (h.caches handle).count _ _ (EventCountCache.get_some hn)
  have hsame : e' = e := h.coherent.table_eq he' he hrev
  rw [← hsame]
  exact hcount r rfl

theorem CountingSystem.Sound.probe {id : Nat} (h : s.Sound sha256) {call : CountCall lc}
    (hbegan : call.began ≤ s.now) {revision : Nat} {hit : Nat → CountStage} {miss : CountStage}
    (hmiss : miss.Sound s id call.began call.request)
    (hhit : ∀ n, (EventCountCache.get (call.request.key sha256) revision
      (s.caches call.handle)).1 = some n → (hit n).Sound s id call.began call.request) :
    (s.probe sha256 id call revision hit miss).Sound sha256 := by
  unfold CountingSystem.probe
  refine h.put rfl rfl (.inl rfl) h.held (fun handle => ?_) hbegan ?_
  · show EventCountCache.Exact lc sha256 s.corpus.timeline (update s.caches call.handle _ handle)
    by_cases heq : handle = call.handle
    · subst heq
      rw [update_self]
      exact (h.caches _).get _ _
    · rw [update_of_ne heq]
      exact h.caches handle
  · split
    · rename_i n hn
      exact hhit n hn
    · exact hmiss

theorem CountingSystem.Sound.step (hsha : Injective sha256) {s : CountingSystem lc}
    (h : s.Sound sha256) {id : Nat} {call : CountCall lc} (hcall : s.calls id = some call)
    (readable : Bool) : (s.step sha256 id readable call).Sound sha256 := by
  have hknown := h.calls id call hcall
  have hbegan := h.began id call hcall
  unfold CountingSystem.step
  cases hstage : call.stage with
  | started =>
    obtain ⟨events, hcurrent⟩ := h.coherent.current
    exact h.read hbegan ⟨_, .at hcurrent hbegan (Nat.le_refl _), rfl⟩
  | observed revision =>
    rw [hstage] at hknown
    refine h.read hbegan ?_
    split
    · exact hknown
    · trivial
  | probing revision =>
    rw [hstage] at hknown
    obtain ⟨e, he, rfl⟩ := hknown
    exact h.probe hbegan trivial fun n hn => ⟨Nat.le_refl _, e, he, h.hit he.mem hn⟩
  | waiting =>
    dsimp only
    split
    · exact h
    · rename_i hfree
      rw [Bool.or_eq_true, not_or, Bool.not_eq_true, Bool.not_eq_true] at hfree
      have hnone : s.holder = none := by simpa using hfree.1
      rw [h.coherent.eventRevision hfree.2]
      exact h.put rfl rfl (.inr (.inl hnone)) (fun _ => hfree.2) h.caches hbegan ⟨rfl, rfl⟩
  | locked revision =>
    rw [hstage] at hknown
    refine h.read hbegan ?_
    split
    · exact hknown
    · exact hknown
  | reprobing revision =>
    rw [hstage] at hknown
    obtain ⟨hmine, hrev⟩ := hknown
    have hfree := h.held (by rw [hmine]; rfl)
    have hclock := h.coherent.clock_eq hfree
    refine h.probe hbegan ⟨hmine, hrev⟩ fun n hn => ⟨hmine, ?_⟩
    have hrev' : revision = s.corpus.db.published.1 := hrev.trans hclock
    rw [hrev'] at hn
    exact h.hit (h.coherent.mem_timeline hfree) hn
  | scanning revision =>
    rw [hstage] at hknown
    dsimp only
    split
    · exact h.read hbegan ⟨hknown.1, hknown.2, rfl⟩
    · exact h.put rfl rfl (.inr (.inr hknown.1)) (fun hs => by cases hs) h.caches hbegan trivial
  | scanned revision count =>
    rw [hstage] at hknown
    refine h.read hbegan ?_
    split
    · exact hknown
    · exact ⟨hknown.1, hknown.2.2⟩
  | storing revision count =>
    rw [hstage] at hknown
    obtain ⟨hmine, rfl, rfl⟩ := hknown
    have hfree := h.held (by rw [hmine]; rfl)
    have hclock := h.coherent.clock_eq hfree
    refine h.put rfl rfl (.inl rfl) h.held (fun handle => ?_) hbegan ⟨hmine, rfl⟩
    show EventCountCache.Exact lc sha256 s.corpus.timeline (update s.caches call.handle _ handle)
    by_cases heq : handle = call.handle
    · subst heq
      rw [update_self, hclock]
      exact (h.caches _).insert hsha (h.coherent.mem_timeline hfree) call.request
    · rw [update_of_ne heq]
      exact h.caches handle
  | leaving count =>
    rw [hstage] at hknown
    obtain ⟨hmine, rfl⟩ := hknown
    have hfree := h.held (by rw [hmine]; rfl)
    exact h.put rfl rfl (.inr (.inr hmine)) (fun hs => by cases hs) h.caches hbegan
      ⟨Nat.le_refl _, _, .at (h.coherent.current_free hfree) hbegan (Nat.le_refl _), rfl⟩
  | returned ended count => exact h
  | failed => exact h

/-! ## Writes -/

/-- A step of a writer, who finds the connection free. -/
theorem CountingSystem.Sound.corpus {s : CountingSystem lc} (h : s.Sound sha256)
    (hnone : s.holder = none) {c : SharedCorpus} (hcoherent : c.Coherent)
    (htimeline : s.corpus.timeline <+: c.timeline) :
    ({ s with corpus := c } : CountingSystem lc).Sound sha256 := by
  have hnow : s.now ≤ c.timeline.length - 1 := by
    have := htimeline.length_le
    unfold CountingSystem.now
    omega
  refine ⟨hcoherent, fun hs => ?_, fun handle => (h.caches handle).mono htimeline,
    fun id call hcall => (h.began id call hcall).trans hnow, fun id call hcall => ?_⟩
  · rw [show s.holder = none from hnone] at hs
    cases hs
  · have hknown := h.calls id call hcall
    cases hstage : call.stage with
    | started | waiting | failed => trivial
    | observed revision | probing revision =>
      rw [hstage] at hknown
      obtain ⟨e, he, hrev⟩ := hknown
      exact ⟨e, (he.of_prefix htimeline).widen (Nat.le_refl _) hnow, hrev⟩
    | returned ended count =>
      rw [hstage] at hknown
      obtain ⟨hended, e, he, hcount⟩ := hknown
      exact ⟨hended.trans hnow, e, he.of_prefix htimeline, hcount⟩
    | locked | reprobing | scanning | scanned | storing | leaving =>
      rw [hstage] at hknown
      exact absurd (hnone.symm.trans hknown.1) (by simp)

theorem CountingSystem.Sound.apply (hsha : Injective sha256) {s : CountingSystem lc}
    (h : s.Sound sha256) (action : CountAction lc) : (action.apply sha256 s).Sound sha256 := by
  cases action with
  | start id handle request =>
    unfold CountAction.apply
    dsimp only
    split
    · exact h
    · exact h.put rfl rfl (.inl rfl) h.held h.caches (Nat.le_refl _) trivial
  | step id readable =>
    unfold CountAction.apply
    dsimp only
    split
    · rename_i call hcall
      exact h.step hsha hcall readable
    · exact h
  | commit op =>
    unfold CountAction.apply
    dsimp only
    split
    · exact h
    · rename_i hnone
      rw [Option.not_isSome_iff_eq_none] at hnone
      exact h.corpus hnone (h.coherent.commit op) (by rw [SharedCorpus.timeline_commit])
  | publish =>
    show ({ s with corpus := s.corpus.publish } : CountingSystem lc).Sound sha256
    rcases Option.eq_none_or_eq_some s.holder with hnone | ⟨id, hid⟩
    · exact h.corpus hnone h.coherent.publish s.corpus.timeline_publish
    · -- a reader holds the connection, and no commit waits to be published
      have hfree := h.held (by rw [hid]; rfl)
      have hsame : s.corpus.publish = s.corpus := by simp [SharedCorpus.publish, hfree]
      rw [hsame]
      exact h
  | clear handle =>
    refine ⟨h.coherent, h.held, fun handle' => ?_, h.began, h.calls⟩
    show EventCountCache.Exact lc sha256 s.corpus.timeline
      (update s.caches handle .empty handle')
    by_cases heq : handle' = handle
    · subst heq
      rw [update_self]
      exact .empty _
    · rw [update_of_ne heq]
      exact h.caches handle'

theorem CountingSystem.Sound.run (hsha : Injective sha256) (h : s.Sound sha256)
    (actions : List (CountAction lc)) : (s.run sha256 actions).Sound sha256 := by
  induction actions generalizing s with
  | nil => exact h
  | cons action actions ih => exact ih (h.apply hsha action)

theorem CountingSystem.Sound.opened (db : CorpusDb) :
    (CountingSystem.opened lc db).Sound sha256 :=
  ⟨.opened db, fun hs => (by cases hs), fun _ => .empty _, fun _ _ hcall => (by cases hcall),
    fun _ _ hcall => (by cases hcall)⟩

/-- In every interleaving of counts and writes a returned total is the exact count of a table that
was current between the start and the end of the call; a cached count belongs to the table of its
revision and is returned for no other revision; and every cache is bounded, its entries and its
recency order with the same keys. -/
theorem event_counts_exact (lc : Lowercase) {sha256 : List UInt8 → List UInt8}
    (hsha : Injective sha256) (db : CorpusDb) (actions : List (CountAction lc)) :
    (∀ id call ended total,
      ((CountingSystem.opened lc db).run sha256 actions).calls id = some call →
      call.stage = .returned ended total → ∃ table : Nat × List EventRow,
        Current ((CountingSystem.opened lc db).run sha256 actions).corpus.timeline call.began ended
          table ∧ total = table.2.countP (satisfies lc call.request.clauses)) ∧
    ∀ handle (cache : EventCountCache),
      ((CountingSystem.opened lc db).run sha256 actions).caches handle = cache →
      (∀ (key : EventCountCacheKey) revision total, (cache.get key revision).1 = some total →
        cache.entries.lookup key = some ⟨revision, total⟩) ∧
      (∀ (key : EventCountCacheKey) (entry : CachedEventCount), cache.entries.lookup key = some entry →
        ∃ table ∈ ((CountingSystem.opened lc db).run sha256 actions).corpus.timeline,
          table.1 = entry.revision ∧ ∀ r : CountRequest lc, r.key sha256 = key →
            entry.count = table.2.countP (satisfies lc r.clauses)) ∧
      cache.entries.keys.length ≤ eventCountCacheCap ∧ cache.order.Nodup ∧
      ∀ key : EventCountCacheKey, key ∈ cache.order ↔ key ∈ cache.entries := by
  have h := (CountingSystem.Sound.opened db).run hsha actions
  refine ⟨fun id call ended total hcall hstage => ?_, fun handle cache hcache => ?_⟩
  · have hknown := h.calls id call hcall
    rw [hstage] at hknown
    obtain ⟨-, table, hcurrent, htotal⟩ := hknown
    exact ⟨table, hcurrent, htotal⟩
  · have hexact := h.caches handle
    rw [hcache] at hexact
    exact ⟨fun _ _ _ => EventCountCache.get_some, hexact.count, hexact.sound.bounded,
      hexact.sound.aligned.nodup, hexact.sound.aligned.mem⟩

def countAll : CountRequest asciiLowercase where
  query := .default
  additionalKeyword := none
  clauses := []
  built := rfl
  sqlFits := by decide +kernel
  countFits := by decide
  integersFit := fun _ h => by cases h
  textsFit := fun _ h => by cases h

/-- A count by one handle, an append, and a count by another handle. -/
def countedTwice : List (CountAction asciiLowercase) :=
  .start 0 0 countAll :: List.replicate 10 (.step 0 true) ++
    [.commit (.push (.ok ()) [(wallEvent 0 0, none)]), .publish, .start 1 1 countAll] ++
    List.replicate 10 (.step 1 true)

theorem event_counts_exact_twice : ∃ call : CountCall asciiLowercase, ∃ ended,
    call.stage = .returned ended 1 ∧ ∃ table : Nat × List EventRow,
      Current ((CountingSystem.opened asciiLowercase .create).run id countedTwice).corpus.timeline
        call.began ended table ∧ 1 = table.2.countP (satisfies asciiLowercase call.request.clauses) := by
  have hstage : (((CountingSystem.opened asciiLowercase .create).run id countedTwice).calls 1).map
      CountCall.stage = some (.returned 1 1) := by decide +kernel
  obtain ⟨call, hcall, hreturned⟩ := Option.map_eq_some_iff.mp hstage
  exact ⟨call, 1, hreturned, (event_counts_exact asciiLowercase injective_id .create
    countedTwice).1 1 call 1 1 hcall hreturned⟩

end ContextDesk.LogAnalysis
