import ContextDesk.Lib.LexPath
import ContextDesk.Lib.Str

/-!
# Session permissions of tools

`PermissionState` holds the paths and tools a user has allowed for a session, and
`mayExecuteWithoutPrompt` decides whether a call runs without a new prompt. A grant is only ever
added, by `allowSessionPath` or `allowSessionTool`; `afterGrants` is the state after any sequence
of them.

`pathUnderGrant` compares texts. `grantedRest` is the part of a target that follows the grant, and
`session_grants_confined` says what an approval means for the place the target names: nothing, when
the rest climbs out of the granted directory by `..`, and that it lies at or below a granted path
otherwise.
-/

namespace ContextDesk.Permissions

open Lib Lib.Text Lib.Str LexPath

inductive ToolSideEffect where
  | read
  | softWrite
  | hardWrite
  deriving DecidableEq

/-! ## Targets -/

def isConfluenceWriteTarget (target : List Char) : Bool := startsWith "confluence://" (trim target)

def isHarvestTarget (target : List Char) : Bool := startsWith "harvest://" (trim target)

def isDestructiveMemoryTarget (target : List Char) : Bool :=
  let t := trim target
  startsWith "mem://retract/" t || startsWith "mem://purge/" t

def destructiveMemoryHardWrite (sideEffect : ToolSideEffect) (target : List Char) : Bool :=
  sideEffect = .hardWrite && startsWith "mem://" (trim target)

/-- `trim_end_matches('/')`. -/
def trimEndSlashes (l : List Char) : List Char := (l.reverse.dropWhile (· = '/')).reverse

def pathUnderGrant (path grant : List Char) : Bool :=
  let path := trimEndSlashes (trim path)
  let grant := trimEndSlashes (trim grant)
  if grant = [] then false
  else if path = grant then true
  else (grant ++ ['/']).isPrefixOf path

/-! ## The state -/

structure PermissionState where
  sessionPaths : List (List Char) := []
  approvedTools : List (List Char) := []
  deriving DecidableEq

namespace PermissionState

def allowSessionPath (s : PermissionState) (path : List Char) : PermissionState :=
  if path ∈ s.sessionPaths then s else { s with sessionPaths := s.sessionPaths ++ [path] }

def allowSessionTool (s : PermissionState) (toolName : List Char) : PermissionState :=
  if toolName ∈ s.approvedTools then s
  else { s with approvedTools := s.approvedTools ++ [toolName] }

def sessionPathAllowed (s : PermissionState) (path : List Char) : Bool :=
  s.sessionPaths.any fun grant => pathUnderGrant (trim path) grant

def sessionToolAllowed (s : PermissionState) (toolName : List Char) : Bool :=
  s.approvedTools.contains toolName

def mayExecuteWithoutPrompt (s : PermissionState) (sideEffect : ToolSideEffect)
    (target : List Char) : Bool :=
  if startsWith "mcp__" target then sideEffect = .read && s.sessionToolAllowed target
  else if isDestructiveMemoryTarget target then false
  else if isHarvestTarget target then false
  else if isConfluenceWriteTarget target then false
  else
    match sideEffect with
    | .read => true
    | .softWrite => s.sessionPathAllowed target
    | .hardWrite =>
      if destructiveMemoryHardWrite sideEffect target then false
      else s.sessionPathAllowed target

inductive Grant where
  | path (path : List Char)
  | tool (toolName : List Char)
  deriving DecidableEq

def grant (s : PermissionState) : Grant → PermissionState
  | .path p => s.allowSessionPath p
  | .tool t => s.allowSessionTool t

def afterGrants (grants : List Grant) : PermissionState := grants.foldl grant {}

theorem mem_grant (s : PermissionState) (g : Grant) (p : List Char) :
    p ∈ (s.grant g).sessionPaths ↔ p ∈ s.sessionPaths ∨ .path p = g := by
  cases g with
  | path q =>
    show p ∈ (s.allowSessionPath q).sessionPaths ↔ _
    unfold allowSessionPath
    rw [Grant.path.injEq]
    split
    · rename_i hq
      constructor
      · exact .inl
      · rintro (h | rfl)
        · exact h
        · exact hq
    · rw [List.mem_append, List.mem_singleton]
  | tool t =>
    show p ∈ (s.allowSessionTool t).sessionPaths ↔ _
    unfold allowSessionTool
    split <;> simp

theorem mem_foldl_grant (grants : List Grant) (s : PermissionState) (p : List Char) :
    p ∈ (grants.foldl grant s).sessionPaths ↔ p ∈ s.sessionPaths ∨ .path p ∈ grants := by
  induction grants generalizing s with
  | nil => simp
  | cons g grants ih => rw [List.foldl_cons, ih, mem_grant, List.mem_cons, or_assoc]

theorem mem_sessionPaths {grants : List Grant} {p : List Char} :
    p ∈ (afterGrants grants).sessionPaths ↔ .path p ∈ grants := by
  unfold afterGrants
  rw [mem_foldl_grant]
  simp

end PermissionState

/-! ## Where an approved path lies -/

theorem trimEndSlashes_append (l : List Char) :
    ∃ k, l = trimEndSlashes l ++ List.replicate k '/' := by
  refine ⟨(l.reverse.takeWhile (· = '/')).length, ?_⟩
  have hall : l.reverse.takeWhile (· = '/') =
      List.replicate (l.reverse.takeWhile (· = '/')).length '/' :=
    List.eq_replicate_iff.mpr
      ⟨rfl, fun c hc => by simpa using List.mem_takeWhile_imp (p := (· = '/')) hc⟩
  have hsplit := List.takeWhile_append_dropWhile (p := (· = '/')) (l := l.reverse)
  have hrev := congrArg List.reverse hsplit
  rw [List.reverse_append, List.reverse_reverse, hall, List.reverse_replicate] at hrev
  exact hrev.symm

theorem normalise_trimEndSlashes {l : List Char} (h : trimEndSlashes l ≠ []) :
    normalise (trimEndSlashes l) = normalise l := by
  obtain ⟨k, hk⟩ := trimEndSlashes_append l
  nth_rewrite 2 [hk]
  exact (normalise_append_slashes h k).symm

/-- What follows the granted path in a target that it admits. -/
def grantedRest (target grant : List Char) : List Char :=
  (trimEndSlashes (trim target)).drop ((trimEndSlashes (trim grant)).length + 1)

theorem pathUnderGrant_cases {path grant : List Char} (h : pathUnderGrant path grant = true) :
    trimEndSlashes (trim grant) ≠ [] ∧
      (trimEndSlashes (trim path) = trimEndSlashes (trim grant) ∨
        trimEndSlashes (trim path) =
          trimEndSlashes (trim grant) ++ '/' :: grantedRest path grant) := by
  unfold pathUnderGrant at h
  simp only at h
  split at h
  · cases h
  rename_i hne
  refine ⟨hne, ?_⟩
  split at h
  · exact .inl ‹_›
  · refine .inr ?_
    obtain ⟨rest, hrest⟩ := List.isPrefixOf_iff_prefix.mp h
    unfold grantedRest
    rw [← hrest]
    simp

theorem atOrBelow_of_granted {target grant : List Char}
    (h : pathUnderGrant (trim target) grant = true)
    (hstays : staysWithin 0 (components (grantedRest target grant)) = true) :
    AtOrBelow (normalise (trim target)) (normalise (trim grant)) := by
  obtain ⟨hne, hcases⟩ := pathUnderGrant_cases h
  unfold grantedRest at hcases hstays
  rw [trim_trim] at hcases
  have hnonempty : trimEndSlashes (trim target) ≠ [] := by
    rcases hcases with he | he
    · rw [he]
      exact hne
    · rw [he]
      simp
  rw [← normalise_trimEndSlashes hne, ← normalise_trimEndSlashes hnonempty]
  rcases hcases with he | he
  · rw [he]
    exact .refl _
  · rw [he]
    exact normalise_append_below hne hstays

namespace PermissionState

theorem may_write {s : PermissionState} {sideEffect : ToolSideEffect} {target : List Char}
    (hside : sideEffect ≠ .read) (h : s.mayExecuteWithoutPrompt sideEffect target = true) :
    startsWith "mcp__" target = false ∧ isDestructiveMemoryTarget target = false ∧
      isHarvestTarget target = false ∧ isConfluenceWriteTarget target = false ∧
      destructiveMemoryHardWrite sideEffect target = false ∧
      s.sessionPathAllowed target = true := by
  unfold mayExecuteWithoutPrompt at h
  split at h
  · simp [hside] at h
  rename_i hmcp
  split at h
  · cases h
  rename_i hmem
  split at h
  · cases h
  rename_i hharvest
  split at h
  · cases h
  rename_i hconf
  simp only [Bool.not_eq_true] at hmcp hmem hharvest hconf
  refine ⟨hmcp, hmem, hharvest, hconf, ?_⟩
  cases sideEffect with
  | read => exact absurd rfl hside
  | softWrite => exact ⟨rfl, h⟩
  | hardWrite =>
    simp only at h
    split at h
    · cases h
    · rename_i hhard
      exact ⟨by simpa using hhard, h⟩

/-- After any grants, the protected targets are never written without a prompt; a target that is
has been admitted by a granted path, and lies at or below every granted path that admits it and
that it does not climb out of. -/
theorem session_grants_confined (grants : List Grant) (sideEffect : ToolSideEffect)
    (target : List Char) :
    (sideEffect ≠ .read →
      isConfluenceWriteTarget target = true ∨ isHarvestTarget target = true ∨
        isDestructiveMemoryTarget target = true ∨ startsWith "mcp__" target = true →
      (afterGrants grants).mayExecuteWithoutPrompt sideEffect target = false) ∧
    (sideEffect = .hardWrite → startsWith "mem://" (trim target) = true →
      (afterGrants grants).mayExecuteWithoutPrompt sideEffect target = false) ∧
    (sideEffect ≠ .read →
      (afterGrants grants).mayExecuteWithoutPrompt sideEffect target = true →
      (∃ g, .path g ∈ grants ∧ pathUnderGrant (trim target) g = true) ∧
        ∀ g, .path g ∈ grants → pathUnderGrant (trim target) g = true →
          staysWithin 0 (components (grantedRest target g)) = true →
          AtOrBelow (normalise (trim target)) (normalise (trim g))) := by
  refine ⟨fun hside hprotected => ?_, fun hhard hmem => ?_, fun hside hmay => ⟨?_, ?_⟩⟩
  · by_contra hmay
    rw [Bool.not_eq_false] at hmay
    obtain ⟨hmcp, hmem, hharvest, hconf, -, -⟩ := may_write hside hmay
    rcases hprotected with h | h | h | h
    · exact absurd (h.symm.trans hconf) (by decide)
    · exact absurd (h.symm.trans hharvest) (by decide)
    · exact absurd (h.symm.trans hmem) (by decide)
    · exact absurd (h.symm.trans hmcp) (by decide)
  · by_contra hmay
    rw [Bool.not_eq_false] at hmay
    obtain ⟨-, -, -, -, hdestructive, -⟩ := may_write (by rw [hhard]; decide) hmay
    unfold destructiveMemoryHardWrite at hdestructive
    simp [hhard, hmem] at hdestructive
  · obtain ⟨-, -, -, -, -, hallowed⟩ := may_write hside hmay
    obtain ⟨g, hg, hunder⟩ := List.any_eq_true.mp hallowed
    exact ⟨g, mem_sessionPaths.mp hg, hunder⟩
  · intro g _ hunder hstays
    exact atOrBelow_of_granted hunder hstays

/-- A granted directory and a target that climbs out of it. -/
theorem parent_components_escape :
    (afterGrants [.path "/proj/memory".toList]).mayExecuteWithoutPrompt .softWrite
        "/proj/memory/../../etc/passwd".toList = true ∧
      ¬ ∃ g, .path g ∈ [Grant.path "/proj/memory".toList] ∧
        AtOrBelow (normalise (trim "/proj/memory/../../etc/passwd".toList))
          (normalise (trim g)) := by
  refine ⟨by decide +kernel, ?_⟩
  rintro ⟨g, hg, hbelow⟩
  cases List.mem_singleton.mp hg
  revert hbelow
  decide +kernel

end PermissionState

end ContextDesk.Permissions
