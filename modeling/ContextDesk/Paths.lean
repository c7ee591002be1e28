import ContextDesk.Lib.FileTree

/-!
# Path allowlist

`resolveAllowedPath` finds the first workspace root under which a path lies. What it compares with
the root depends on what exists: a path that does is canonicalised; for one that does not the parent
is, and the name put after it unread; when the parent is missing too, the text alone is normalised.
File names are text here, and `toLowercase` is any function: only the code's own check uses it.
-/

namespace ContextDesk.Paths

open Lib

inductive CoreError where
  | policy (message : String)
  | io
  deriving DecidableEq

structure Workspace where
  roots : List FilePath

/-- The text of a path, as `display` gives it. -/
def display (p : FilePath) : String :=
  (if p.absolute then "/" else "") ++ "/".intercalate (p.segs.map String.ofList)

end ContextDesk.Paths
