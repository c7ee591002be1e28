import ContextDesk.MemoryStore

/-!
# Duplicates at capture time

A candidate is held against the active records: the first record with its content hash, then the
first one of its kind and title whose content is about as long, then what the embedding backend
finds. The length test takes the smaller of two saturating differences, and one of the two is
always zero (`min_sub_sub`): it lets every length through, so of two records with one title the
first is taken however long it is (`detectDedup_exact`).

Similarities are a parameter, with their comparisons; so is the content hash.
-/

namespace ContextDesk.Memory

open Lib Lib.Text Lib.ByteIndex

/-- What is read of a candidate, and where a proposal is left. -/
structure MemoryCandidate where
  kind : Kind
  title : Text
  content : Text
  contentHash : Text
  proposeSupersedeOf : Option Uuid
  deriving DecidableEq

structure ActiveRecord where
  id : Uuid
  kind : Kind
  title : Text
  content : Text
  contentHash : Text
  deriving DecidableEq

/-- A stored record, its kind read from its column. -/
def MemoryRecord.active (r : MemoryRecord) : ActiveRecord :=
  ⟨r.id, Kind.parse r.row.kind, r.row.title, r.row.content, r.row.contentHash⟩

/-- The similarities, as far as they are compared. -/
structure Similarities (F : Type) where
  nineTenths : F
  /-- Into `0.5 ..= 0.99`. -/
  clamp : F → F
  ge : F → F → Bool
  gt : F → F → Bool

structure EmbedBackend (F : Type) where
  Vector : Type
  embed : Text → Option Vector
  cosine : Vector → Vector → F

inductive DedupProposal (F : Type) where
  | novel
  | exactDuplicate (existingId : Uuid)
  | nearMatch (existingId : Uuid) (similarity : F)
  deriving DecidableEq

def kindsCompatible : Kind → Kind → Bool
  | .fact, .projectNote | .projectNote, .fact | .decision, .fact | .fact, .decision => true
  | _, _ => false

variable {F : Type}

/-- `saturating_sub` both ways, and the smaller of the two. -/
def lengthGap (r : ActiveRecord) (candidate : MemoryCandidate) : Nat :=
  min (byteLen r.content - byteLen candidate.content)
    (byteLen candidate.content - byteLen r.content)

/-- A record of the candidate's kind and title. -/
def sameTitled (candidate : MemoryCandidate) (r : ActiveRecord) : Bool :=
  decide (r.kind = candidate.kind) && !r.title.isEmpty && eqIgnoreAsciiCase r.title candidate.title

/-- The closest record that a backend finds, the first of several. -/
def bestMatch (sims : Similarities F) (backend : EmbedBackend F) (candidate : MemoryCandidate)
    (threshold : F) (qvec : backend.Vector) : List ActiveRecord → Option (Uuid × F) →
      Option (Uuid × F)
  | [], best => best
  | r :: rest, best =>
    if r.kind ≠ candidate.kind ∧ kindsCompatible candidate.kind r.kind = false then
      bestMatch sims backend candidate threshold qvec rest best
    else
      match backend.embed r.content with
      | none => bestMatch sims backend candidate threshold qvec rest best
      | some dvec =>
        let sim := backend.cosine qvec dvec
        if sims.ge sim threshold && (best.map fun b => sims.gt sim b.2).getD true then
          bestMatch sims backend candidate threshold qvec rest (some (r.id, sim))
        else bestMatch sims backend candidate threshold qvec rest best

/-- The candidate's hash, computed where it has none. -/
def candidateHash (contentHashFor : Text → Text) (candidate : MemoryCandidate) : Text :=
  if candidate.contentHash.isEmpty then contentHashFor candidate.content
  else candidate.contentHash

def detectDedup (contentHashFor : Text → Text) (sims : Similarities F)
    (candidate : MemoryCandidate) (actives : List ActiveRecord) (embed : Option (EmbedBackend F))
    (nearThreshold : F) : DedupProposal F :=
  let thr := sims.clamp nearThreshold
  let ch := candidateHash contentHashFor candidate
  match actives.find? fun r => r.contentHash = ch with
  | some r => .exactDuplicate r.id
  | none =>
    match actives.find? fun r => sameTitled candidate r && lengthGap r candidate < 40 with
    | some r => .nearMatch r.id sims.nineTenths
    | none =>
      match embed with
      | none => .novel
      | some backend =>
        match backend.embed candidate.content with
        | none => .novel
        | some qvec =>
          match bestMatch sims backend candidate thr qvec actives none with
          | some (id, sim) => .nearMatch id sim
          | none => .novel

def applyDedupProposal (candidate : MemoryCandidate) (proposal : DedupProposal F) :
    MemoryCandidate :=
  { candidate with
    proposeSupersedeOf :=
      match proposal with
      | .novel => none
      | .exactDuplicate existingId | .nearMatch existingId _ => some existingId }

/-! ## What the two scans find -/

theorem min_sub_sub (a b : Nat) : min (a - b) (b - a) = 0 := by
  omega

theorem lengthGap_eq (r : ActiveRecord) (candidate : MemoryCandidate) :
    lengthGap r candidate = 0 :=
  min_sub_sub _ _

/-- Of the candidate's kind, with its title, whatever the case of the letters. -/
def SameTitled (candidate : MemoryCandidate) (r : ActiveRecord) : Prop :=
  r.kind = candidate.kind ∧ r.title ≠ [] ∧ asciiLower r.title = asciiLower candidate.title

theorem sameTitled_iff {candidate : MemoryCandidate} {r : ActiveRecord} :
    sameTitled candidate r = true ↔ SameTitled candidate r := by
  unfold sameTitled eqIgnoreAsciiCase SameTitled
  simp [and_assoc]

/-- The contents differ by fewer than 40 bytes. -/
def LengthsClose (candidate : MemoryCandidate) (r : ActiveRecord) : Prop :=
  ((byteLen r.content : Int) - byteLen candidate.content).natAbs < 40

instance (candidate : MemoryCandidate) (r : ActiveRecord) :
    Decidable (LengthsClose candidate r) :=
  inferInstanceAs (Decidable (_ < _))

/-- The first record of a list with a property. -/
def FirstWith (p : ActiveRecord → Prop) (actives : List ActiveRecord) (r : ActiveRecord) : Prop :=
  ∃ before after, actives = before ++ r :: after ∧ p r ∧ ∀ b ∈ before, ¬ p b

variable {p : ActiveRecord → Prop} {actives : List ActiveRecord} {r r' : ActiveRecord}

theorem find?_firstWith {q : ActiveRecord → Bool} (h : ∀ r, q r = true ↔ p r) :
    actives.find? q = some r ↔ FirstWith p actives r := by
  rw [List.find?_eq_some_iff_append]
  constructor
  · rintro ⟨hr, before, after, hsplit, hbefore⟩
    refine ⟨before, after, hsplit, (h r).mp hr, fun b hb hp => ?_⟩
    have hq := hbefore b hb
    rw [(h b).mpr hp] at hq
    cases hq
  · rintro ⟨before, after, hsplit, hr, hbefore⟩
    refine ⟨(h r).mpr hr, before, after, hsplit, fun b hb => ?_⟩
    rw [Bool.not_eq_true', Bool.eq_false_iff]
    exact fun hq => hbefore b hb ((h b).mp hq)

theorem find?_none {q : ActiveRecord → Bool} (h : ∀ r, q r = true ↔ p r) :
    actives.find? q = none ↔ ∀ r ∈ actives, ¬ p r := by
  rw [List.find?_eq_none]
  exact forall₂_congr fun r _ => not_congr (h r)

theorem FirstWith.mem (h : FirstWith p actives r) : r ∈ actives := by
  obtain ⟨before, after, rfl, -, -⟩ := h
  exact List.mem_append_right _ List.mem_cons_self

theorem FirstWith.holds (h : FirstWith p actives r) : p r := by
  obtain ⟨before, after, -, hr, -⟩ := h
  exact hr

theorem FirstWith.unique (h : FirstWith p actives r) (h' : FirstWith p actives r') : r = r' := by
  classical
  have hq : ∀ r, decide (p r) = true ↔ p r := fun r => decide_eq_true_iff
  rw [← find?_firstWith hq] at h h'
  rw [h, Option.some.injEq] at h'
  exact h'

/-! ## Without an embedding backend -/

/-- What is proposed: a match of the first scan, else of the second, else nothing. -/
def ProposedBy (near : ActiveRecord → Prop) (contentHashFor : Text → Text) (nineTenths : F)
    (candidate : MemoryCandidate) (actives : List ActiveRecord) (proposal : DedupProposal F) :
    Prop :=
  let sameHash := fun r : ActiveRecord => r.contentHash = candidateHash contentHashFor candidate
  (∃ r, FirstWith sameHash actives r ∧ proposal = .exactDuplicate r.id) ∨
    ((∀ r ∈ actives, ¬ sameHash r) ∧
      ((∃ r, FirstWith near actives r ∧ proposal = .nearMatch r.id nineTenths) ∨
        ((∀ r ∈ actives, ¬ near r) ∧ proposal = .novel)))

theorem detectDedup_proposed (contentHashFor : Text → Text) (sims : Similarities F)
    (candidate : MemoryCandidate) (actives : List ActiveRecord) (nearThreshold : F) :
    ProposedBy (SameTitled candidate) contentHashFor sims.nineTenths candidate actives
      (detectDedup contentHashFor sims candidate actives none nearThreshold) := by
  have hhash : ∀ r : ActiveRecord,
      decide (r.contentHash = candidateHash contentHashFor candidate) = true ↔
        r.contentHash = candidateHash contentHashFor candidate := fun r => decide_eq_true_iff
  have hnear : ∀ r, (sameTitled candidate r && decide (lengthGap r candidate < 40)) = true ↔
      SameTitled candidate r := by
    intro r
    rw [lengthGap_eq, Bool.and_eq_true, sameTitled_iff]
    simp
  unfold detectDedup
  simp only
  split
  · next r hfind => exact Or.inl ⟨r, (find?_firstWith hhash).mp hfind, rfl⟩
  · next hnone =>
    refine Or.inr ⟨(find?_none hhash).mp hnone, ?_⟩
    split
    · next r hfind => exact Or.inl ⟨r, (find?_firstWith hnear).mp hfind, rfl⟩
    · next hfind => exact Or.inr ⟨(find?_none hnear).mp hfind, rfl⟩

/-- The length test is the only thing that is missed. -/
theorem detectDedup_exact (contentHashFor : Text → Text) (sims : Similarities F)
    (candidate : MemoryCandidate) (actives : List ActiveRecord) (nearThreshold : F) :
    ProposedBy (fun r => SameTitled candidate r ∧ LengthsClose candidate r) contentHashFor
        sims.nineTenths candidate actives
        (detectDedup contentHashFor sims candidate actives none nearThreshold) ↔
      (∃ r ∈ actives, r.contentHash = candidateHash contentHashFor candidate) ∨
        ∀ r, FirstWith (SameTitled candidate) actives r →
          ∃ c, FirstWith (fun r => SameTitled candidate r ∧ LengthsClose candidate r) actives c ∧
            c.id = r.id := by
  have hcode := detectDedup_proposed contentHashFor sims candidate actives nearThreshold
  generalize detectDedup contentHashFor sims candidate actives none nearThreshold = proposal at hcode
  rcases hcode with ⟨r, hr, rfl⟩ | ⟨hnone, ⟨r, hr, rfl⟩ | ⟨hnever, rfl⟩⟩
  · exact iff_of_true (Or.inl ⟨r, hr, rfl⟩) (Or.inl ⟨r, hr.mem, hr.holds⟩)
  · constructor
    · rintro (⟨_, -, h⟩ | ⟨-, ⟨c, hc, h⟩ | ⟨-, h⟩⟩)
      · cases h
      · rw [DedupProposal.nearMatch.injEq] at h
        refine Or.inr fun r' hr' => ⟨c, hc, ?_⟩
        rw [← hr.unique hr', h.1]
      · cases h
    · rintro (⟨r', hr', hhash⟩ | hfirst)
      · exact absurd hhash (hnone r' hr')
      · obtain ⟨c, hc, hid⟩ := hfirst r hr
        exact Or.inr ⟨hnone, Or.inl ⟨c, hc, by rw [hid]⟩⟩
  · refine iff_of_true (Or.inr ⟨hnone, Or.inr ⟨fun r hr h => hnever r hr h.1, rfl⟩⟩)
      (Or.inr fun r hr => absurd hr.holds (hnever r hr.mem))

/-- A note of a kilobyte, and a short one with its title. -/
def longNote : ActiveRecord where
  id := 1
  kind := .fact
  title := "plants".toList
  content := List.replicate 1024 'a'
  contentHash := "9760383deca60b5f:1024".toList

def shortNote : MemoryCandidate where
  kind := .fact
  title := "Plants".toList
  content := "water".toList
  contentHash := "71ac17ede288b71d:5".toList
  proposeSupersedeOf := none

def oneSimilarity : Similarities Unit := ⟨(), id, fun _ _ => true, fun _ _ => false⟩

theorem short_note_replaces_long :
    detectDedup id oneSimilarity shortNote [longNote] none () = .nearMatch 1 () ∧
      ¬ ProposedBy (fun r => SameTitled shortNote r ∧ LengthsClose shortNote r) id () shortNote
        [longNote] (detectDedup id oneSimilarity shortNote [longNote] none ()) := by
  have hcode : detectDedup id oneSimilarity shortNote [longNote] none () = .nearMatch 1 () := by
    decide +kernel
  have hfar : ¬ LengthsClose shortNote longNote := by decide +kernel
  refine ⟨hcode, ?_⟩
  rw [hcode]
  rintro (⟨_, -, h⟩ | ⟨-, ⟨c, hc, -⟩ | ⟨-, h⟩⟩)
  · cases h
  · have hmem := hc.mem
    rw [List.mem_singleton] at hmem
    exact hfar (hmem ▸ hc.holds.2)
  · cases h

end ContextDesk.Memory
