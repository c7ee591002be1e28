import Mathlib.Data.List.Perm.Subperm

/-!
# Lines of parents

`ends` follows the parents of an item and looks for one that was seen before. A line whose walk
ends is `Rooted`.
-/

namespace ContextDesk.Lib.Lineage

open List

variable {α : Type} (parent : α → Option α)

/-- Whether the parents end before one is seen twice. -/
def ends [DecidableEq α] : Nat → List α → Option α → Bool
  | _, _, none => true
  | 0, _, some _ => false
  | n + 1, seen, some a => decide (a ∉ seen) && ends n (a :: seen) (parent a)

variable {parent}

end ContextDesk.Lib.Lineage
