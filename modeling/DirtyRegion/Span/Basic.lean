import DirtyRegion.Span.Error

/-!
# Spans — half-open intervals of offsets

`Span` is an interval `[start, stop)` of offsets that does not run backwards; the field
`start_le_stop` keeps that in the type. A span of length zero still has a position.

- `Span.ofBounds`, `Span.ofLength` build a span from two numbers or say why there is none.
- `Span.length`, `Span.isEmpty`, `Span.contains`, `Span.intersects` look at spans as sets of
  offsets.
- `Span.cover` is the least interval around two spans. The gap between the two goes in, and so does
  the position of a span of length zero.
- `Span.display` and `Span.outline` write a span for people.
-/

namespace DirtyRegion

/-- A half-open interval `[start, stop)` of offsets. -/
structure Span where
  /-- The first offset of the span. -/
  start : Offset
  /-- The first offset after the span. -/
  stop : Offset
  start_le_stop : start ≤ stop
  deriving DecidableEq, Repr

namespace Span

/-! ### Building spans -/

/-- The span of no characters at the start of a text, which stands for "no span". -/
def empty : Span := ⟨0, 0, UInt64.le_refl 0⟩

instance : Inhabited Span := ⟨empty⟩

/-- The span from `start` up to `stop`. -/
def ofBounds (start stop : Offset) : Except SpanError Span :=
  if h : start ≤ stop then .ok ⟨start, stop, h⟩ else .error (.endBeforeStart start stop)

/-- The span of `length` characters from `start` on. -/
def ofLength (start length : Offset) : Except SpanError Span :=
  if h : start.toNat + length.toNat < offsetCount then
    .ok ⟨start, start + length, Offset.le_add_of_lt h⟩
  else
    .error (.lengthOverflow start length)

/-- The two bounds of a span as a plain pair, which may also run backwards. -/
def bounds (s : Span) : Offset × Offset :=
  (s.start, s.stop)

/-- The span with a given pair of bounds. -/
def ofPair (p : Offset × Offset) : Except SpanError Span :=
  ofBounds p.1 p.2

/-! ### Spans as sets of offsets -/

/-- How many characters the span holds. -/
def length (s : Span) : Offset :=
  s.stop - s.start

def isEmpty (s : Span) : Bool :=
  s.length == 0

def contains (s : Span) (o : Offset) : Bool :=
  s.start ≤ o && o < s.stop

/-- The two spans share an offset: the later start lies before the earlier end. -/
def intersects (s t : Span) : Bool :=
  max s.start t.start < min s.stop t.stop

/-- The earlier of two starts lies no later than the later of two ends. -/
theorem min_start_le_max_stop (s t : Span) : min s.start t.start ≤ max s.stop t.stop := by
  have hmax : s.stop ≤ max s.stop t.stop := by
    show s.stop ≤ if s.stop ≤ t.stop then t.stop else s.stop
    split
    · assumption
    · exact UInt64.le_refl _
  exact UInt64.le_trans Std.min_le_left (UInt64.le_trans s.start_le_stop hmax)

/-- The least interval around both spans. -/
def cover (s t : Span) : Span :=
  ⟨min s.start t.start, max s.stop t.stop, min_start_le_max_stop s t⟩

/-! ### Spans in texts -/

/-- The span as an interval, such as `[2, 6)`. -/
def display (s : Span) : String :=
  "[" ++ s.start.toNat.repr ++ ", " ++ s.stop.toNat.repr ++ ")"

/-- The span with its two bounds as fields. -/
def outline (s : Span) : Outline :=
  .group "TextRange" [("start", .number s.start.toNat), ("end", .number s.stop.toNat)]

end Span

end DirtyRegion
