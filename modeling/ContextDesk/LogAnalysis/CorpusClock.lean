import ContextDesk.Lib.Timeline
import ContextDesk.LogAnalysis.RevisionRuns

/-!
# The connection and the revision clock

All open handles of a corpus share one connection and one revision clock. A write takes the
connection, commits, stores the new revision in the clock and only then gives the connection back:
`SharedCorpus.commit` and `SharedCorpus.publish` are these two steps. The clock is read without
the connection, so a reader may see the old revision after the commit.

`timeline` lists the published revisions with their tables. `SharedCorpus.Coherent` is what every
interleaving keeps: revisions only grow, the clock shows the last published one, and whoever gets
the connection finds the table that goes with it.
-/

namespace ContextDesk.LogAnalysis

open Lib List

structure SharedCorpus where
  db : CorpusDb
  clock : Nat
  /-- A writer has committed and holds the connection until it has published. -/
  committed : Bool
  timeline : List (Nat × List EventRow)

/-- The table of a database, under its revision. -/
def CorpusDb.published (db : CorpusDb) : Nat × List EventRow :=
  (db.state.currentRevision, db.events)

def SharedCorpus.opened (db : CorpusDb) : SharedCorpus where
  db := db
  clock := db.state.currentRevision
  committed := false
  timeline := [db.published]

/-- A call that writes, up to its commit. One that is refused commits nothing and gives the
connection back. -/
def SharedCorpus.commit (op : RevisionOp) (c : SharedCorpus) : SharedCorpus :=
  if c.committed then c
  else if (op.run c.db).state.currentRevision = c.db.state.currentRevision then c
  else { c with db := op.run c.db, committed := true }

/-- `event_revision.store`, with the connection still held, and its release. -/
def SharedCorpus.publish (c : SharedCorpus) : SharedCorpus :=
  if c.committed then
    { c with
      clock := c.db.state.currentRevision
      committed := false
      timeline := c.timeline ++ [c.db.published] }
  else c

variable (op : RevisionOp)

theorem RevisionOp.run_revision (db : CorpusDb) :
    op.run db = db ∨ (op.run db).state.currentRevision = db.state.currentRevision + 1 := by
  cases op with
  | push commit rows =>
    obtain he | ⟨-, -, appended, -, he⟩ := pushEventRows_cases commit rows db
    · exact .inl he
    · exact .inr (by rw [run, he])
  | apply env expectedRevision metadata updates =>
    obtain ⟨e, he⟩ | ⟨_, _, hrev, -, -, -, -, -, -, he⟩ :=
      applyEventTimestampRevision_cases env expectedRevision metadata updates db
    · exact .inl (by rw [run, he])
    · exact .inr (by rw [run, he, hrev])
  | undo env expectedRevision =>
    obtain ⟨e, he⟩ | ⟨_, _, _, _, hrev, -, -, -, -, he⟩ :=
      undoEventRevision_cases env expectedRevision db
    · exact .inl (by rw [run, he])
    · exact .inr (by rw [run, he, hrev])

theorem SharedCorpus.commit_cases (c : SharedCorpus) :
    c.commit op = c ∨ c.committed = false ∧
      (op.run c.db).state.currentRevision = c.db.state.currentRevision + 1 ∧
      c.commit op = { c with db := op.run c.db, committed := true } := by
  unfold commit
  split
  · exact .inl rfl
  · rename_i hfree
    split
    · exact .inl rfl
    · rename_i hmoved
      refine .inr ⟨Bool.not_eq_true _ ▸ hfree, ?_, rfl⟩
      rcases op.run_revision c.db with hsame | hnext
      · exact absurd (by rw [hsame]) hmoved
      · exact hnext

structure SharedCorpus.Coherent (c : SharedCorpus) : Prop where
  /-- Every table has a revision of its own. -/
  growing : c.timeline.Pairwise fun a b => a.1 < b.1
  last : ∃ events, c.timeline.getLast? = some (c.clock, events)
  /-- The connection leads to the table of the clock, unless it is held. -/
  free : c.committed = false → c.timeline.getLast? = some c.db.published
  held : c.committed = true → c.clock < c.db.state.currentRevision

theorem SharedCorpus.Coherent.opened (db : CorpusDb) : (SharedCorpus.opened db).Coherent :=
  ⟨pairwise_singleton _ _, ⟨db.events, rfl⟩, fun _ => rfl, fun h => by cases h⟩

variable {c : SharedCorpus}

theorem SharedCorpus.Coherent.clock_eq (h : c.Coherent) (hfree : c.committed = false) :
    c.clock = c.db.state.currentRevision := by
  obtain ⟨events, hlast⟩ := h.last
  have := (h.free hfree).symm.trans hlast
  exact (congrArg Prod.fst (Option.some.inj this)).symm

theorem SharedCorpus.Coherent.commit (h : c.Coherent) (op : RevisionOp) :
    (c.commit op).Coherent := by
  obtain he | ⟨hfree, hnext, he⟩ := c.commit_cases op
  · rw [he]
    exact h
  · rw [he]
    refine ⟨h.growing, h.last, fun hf => (by cases hf), fun _ => ?_⟩
    show c.clock < (op.run c.db).state.currentRevision
    have := h.clock_eq hfree
    omega

theorem SharedCorpus.Coherent.le_clock (h : c.Coherent) {e : Nat × List EventRow}
    (he : e ∈ c.timeline) : e.1 ≤ c.clock := by
  obtain ⟨events, hlast⟩ := h.last
  obtain ⟨past, hpast⟩ := getLast?_eq_some_iff.mp hlast
  have hgrowing := h.growing
  rw [hpast] at hgrowing he
  rcases mem_append.mp he with he | he
  · obtain ⟨-, -, hcross⟩ := pairwise_append.mp hgrowing
    exact Nat.le_of_lt (hcross e he _ (mem_singleton_self _))
  · rw [mem_singleton.mp he]

theorem SharedCorpus.Coherent.publish (h : c.Coherent) : c.publish.Coherent := by
  unfold SharedCorpus.publish
  split
  · rename_i hheld
    refine ⟨?_, ⟨c.db.events, getLast?_concat⟩, fun _ => getLast?_concat, ?_⟩
    · refine pairwise_append.mpr ⟨h.growing, pairwise_singleton _ _, ?_⟩
      intro e he e' he'
      have hle := h.le_clock he
      have hlt := h.held hheld
      rw [mem_singleton.mp he']
      show e.1 < c.db.state.currentRevision
      omega
    · intro hf
      cases hf
  · exact h

theorem SharedCorpus.Coherent.table_eq (h : c.Coherent) {e e' : Nat × List EventRow}
    (he : e ∈ c.timeline) (he' : e' ∈ c.timeline) (hrev : e.1 = e'.1) : e = e' := by
  have hdistinct : Distinct Prod.fst c.timeline :=
    pairwise_map.mpr (h.growing.imp fun hlt => Nat.ne_of_lt hlt)
  exact hdistinct.eq_of_key he he' hrev

theorem SharedCorpus.Coherent.mem_timeline (h : c.Coherent) (hfree : c.committed = false) :
    c.db.published ∈ c.timeline :=
  mem_of_getLast? (h.free hfree)

theorem SharedCorpus.timeline_publish (c : SharedCorpus) : c.timeline <+: c.publish.timeline := by
  unfold publish
  split
  · exact prefix_append _ _
  · exact prefix_refl _

theorem SharedCorpus.timeline_commit (c : SharedCorpus) : (c.commit op).timeline = c.timeline := by
  obtain he | ⟨-, -, he⟩ := c.commit_cases op
  · rw [he]
  · rw [he]

theorem SharedCorpus.clock_commit (c : SharedCorpus) : (c.commit op).clock = c.clock := by
  obtain he | ⟨-, -, he⟩ := c.commit_cases op
  · rw [he]
  · rw [he]

theorem SharedCorpus.Coherent.clock_publish (h : c.Coherent) : c.clock ≤ c.publish.clock := by
  unfold SharedCorpus.publish
  split
  · rename_i hheld
    exact Nat.le_of_lt (h.held hheld)
  · exact Nat.le_refl _

end ContextDesk.LogAnalysis
