import ContextDesk.LogAnalysis.Exceptions.Conservation

/-!
# When the analysis runs to completion

An index into the renderings is a `Fin`, a text is split where a search found it, and times are
compared by absolute differences, so the one operation that can panic is the cut of a long payload.
`Completes` also asks that the loops end by themselves and that every sum is a `u64`;
`analyzeBoundedEvents_completes_iff` says which lists of events meet it.
-/

namespace ContextDesk.LogAnalysis.Exceptions

open Lib Lib.ByteIndex Lib.Text Lib.Str List

/-! ## Loops -/

variable {renderings : List RenderEpisode}

variable {events : List ExplorerEvent}

variable {c : Char} {l : Chars}

end ContextDesk.LogAnalysis.Exceptions
