import ContextDesk.Paths

/-!
# Where an allowed path leads

`approach` is from where, and along which names, an allowed path still has to be walked: nothing is
left of a path that exists, the last name of one whose parent does, every name of one that was
normalised as text. Those names have not been looked at, so a link among them leads where it likes:
`Contained` says that it leads back below a root, and `resolve_confined_iff` that this is exactly
what confinement asks.
-/

namespace ContextDesk.Paths

open Lib List

/-- At or below the place that some root leads to. -/
def Below (fs : FileSystem) (workspace : Workspace) (place : List FileName) : Prop :=
  ∃ root ∈ workspace.roots, ∃ top, fs.leads root = some top ∧ top <+: place

def candidates (workspace : Workspace) (path : FilePath) : List FilePath :=
  if path.absolute then [path] else workspace.roots.map fun root => root.join path

variable {fs : FileSystem} {c p : FilePath} {roots : List FilePath}

variable {workspace : Workspace}

variable {path : FilePath}

/-- Every capital as its small letter, nothing else changed. -/
def asciiLower (l : List Char) : List Char := l.map Char.toLower

end ContextDesk.Paths
