import DirtyRegion.Decimal.Layout
import DirtyRegion.Span.Error
import DirtyRegion.Text.Quoted

/-!
# JSON faults — why a text denotes no span

A text that is no JSON is `Fault.malformed`. A text that is JSON up to some point, but whose part
before that point cannot belong to a span, is `Fault.unfit`, with a `Mismatch` that names the cause.
Reading stops at the first fault. `Mismatch.message` words each cause.
-/

namespace DirtyRegion.Json

/-- A value found where another kind of value was wanted. -/
inductive Found where
  | null
  | boolean (b : Bool)
  /-- A whole number that is an offset. -/
  | natural (n : Offset)
  /-- The whole number `-n`, for `n` from 1 to `2 ^ 63`. -/
  | negative (n : Nat)
  /-- Any other number. -/
  | real (x : Binary64)
  | text (s : String)
  | sequence
  | map
  deriving DecidableEq, Repr

/-- What a place in the text is there for. -/
inductive Wanted where
  | offset
  | span
  deriving DecidableEq, Repr

/-- The two fields of a span as an object. -/
inductive Field where
  | start
  | stop
  deriving DecidableEq, Repr

/-- A part of a JSON text that cannot belong to a span. -/
inductive Mismatch where
  | wrongType (found : Found) (wanted : Wanted)
  /-- The whole number `-n` as a bound. -/
  | belowZero (n : Nat)
  | unknownField (key : String)
  | duplicateField (f : Field)
  /-- An object that closes without the field. -/
  | missingField (f : Field)
  /-- An array that closes after so many values. -/
  | wrongLength (n : Nat)
  | noSpan (e : SpanError)
  deriving DecidableEq, Repr

/-- Why a text denotes no span. -/
inductive Fault where
  | malformed
  | unfit (m : Mismatch)
  deriving DecidableEq, Repr

/-! ### Messages -/

def Field.key : Field → String
  | start => "start"
  | stop => "end"

/-- Numbers with a fraction in messages: from `0.00001` up to `9999999999999999.0` without an
exponent mark. -/
def realLayout : Decimal.Layout := ⟨-5, 15⟩

def Found.describe : Found → String
  | null => "null"
  | boolean b => "boolean `" ++ (if b then "true" else "false") ++ "`"
  | natural n => "integer `" ++ n.toNat.repr ++ "`"
  | negative n => "integer `-" ++ n.repr ++ "`"
  | real x => "floating point `" ++ x.text realLayout ++ "`"
  | text s => "string " ++ Text.quoted s
  | sequence => "sequence"
  | map => "map"

def Wanted.describe : Wanted → String
  | offset => "usize"
  | span => "struct Range"

def Mismatch.message : Mismatch → String
  | wrongType found wanted =>
    "invalid type: " ++ found.describe ++ ", expected " ++ wanted.describe
  | belowZero n =>
    "invalid value: " ++ (Found.negative n).describe ++ ", expected " ++ Wanted.offset.describe
  | unknownField key => "unknown field `" ++ key ++ "`, expected `start` or `end`"
  | duplicateField f => "duplicate field `" ++ f.key ++ "`"
  | missingField f => "missing field `" ++ f.key ++ "`"
  | wrongLength n => "invalid length " ++ n.repr ++ ", expected " ++ Wanted.span.describe
  | noSpan e => e.message

end DirtyRegion.Json
