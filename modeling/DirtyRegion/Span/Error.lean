import DirtyRegion.Offset
import DirtyRegion.Outline

/-!
# Span errors — why two numbers describe no span

A span is given by two offsets or by an offset and a length. The first pair fails when it runs
backwards, the second when its end is no offset. `SpanError.message` words both causes, and
`SpanError.outline` shows cause and numbers for a diagnostic text.
-/

namespace DirtyRegion

/-- Why two numbers describe no span. -/
inductive SpanError where
  | endBeforeStart (start stop : Offset)
  | lengthOverflow (start length : Offset)
  deriving DecidableEq, Repr

namespace SpanError

/-- The cause in words. -/
def message : SpanError → String
  | endBeforeStart start stop =>
    "invalid range: end " ++ stop.toNat.repr ++ " is before start " ++ start.toNat.repr
  | lengthOverflow start length =>
    "invalid range: start " ++ start.toNat.repr ++ " with length " ++ length.toNat.repr
      ++ " overflows"

/-- The cause with its two numbers as fields. -/
def outline : SpanError → Outline
  | endBeforeStart start stop =>
    .group "EndBeforeStart" [("start", .number start.toNat), ("end", .number stop.toNat)]
  | lengthOverflow start length =>
    .group "LengthOverflow" [("start", .number start.toNat), ("length", .number length.toNat)]

end SpanError

end DirtyRegion
