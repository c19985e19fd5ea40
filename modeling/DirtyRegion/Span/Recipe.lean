import DirtyRegion.Json.Span

/-!
# Span recipes — the ways to ask for a span

A `Span.Recipe` asks for a span by its two bounds, by a pair of bounds, by a start and a length, or
by a JSON text. `Recipe.make` gives the span or a `Refusal`.
-/

namespace DirtyRegion

/-- Why a recipe gives no span. -/
inductive Refusal where
  | noSpan (e : SpanError)
  | unread (f : Json.Fault)
  deriving DecidableEq, Repr

namespace Span

inductive Recipe where
  /-- The span that stands for "no span". -/
  | empty
  | bounds (start stop : Offset)
  | pair (p : Offset × Offset)
  | length (start length : Offset)
  | json (text : String)
  deriving DecidableEq, Repr

/-- The span that a recipe asks for. -/
def Recipe.make : Recipe → Except Refusal Span
  | .empty => .ok Span.empty
  | .bounds start stop => (ofBounds start stop).mapError .noSpan
  | .pair p => (ofPair p).mapError .noSpan
  | .length start n => (ofLength start n).mapError .noSpan
  | .json text => (Json.readSpan text).mapError .unread

end Span

end DirtyRegion
