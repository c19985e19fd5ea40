import DirtyRegion.Text.Source

/-!
# Queries on texts — one question and its answer

A `Query` asks a text source for its length, for one character or for the text between two offsets.
The two offsets are made into a span first, so a query may fail before it reaches the text.
-/

namespace DirtyRegion

/-- A question to a text source. -/
inductive Query where
  | length
  | isEmpty
  | charAt (i : Offset)
  | text (start stop : Offset)
  deriving DecidableEq, Repr

namespace Query

/-- What a text source says to a query, with `none` where the text does not reach that far. -/
inductive Answer where
  | count (n : Nat)
  | flag (b : Bool)
  | char (c : Option Char)
  | text (s : Option String)
  deriving DecidableEq, Repr

/-- The answer of a text source. -/
def ask {α : Type} [TextSource α] (t : α) : Query → Except SpanError Answer
  | length => .ok (.count (TextSource.length t))
  | isEmpty => .ok (.flag (TextSource.isEmpty t))
  | charAt i => .ok (.char (TextSource.charAt? t i))
  | text start stop => (Span.ofBounds start stop).map fun r => .text (TextSource.text? t r)

end Query

end DirtyRegion
