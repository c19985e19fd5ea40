import DirtyRegion.Json.Blank
import DirtyRegion.Json.Fault
import DirtyRegion.Json.Number
import DirtyRegion.Json.Text

/-!
# JSON values in the place of an offset

`readOffset` reads one offset. Where another value stands, that value is read to its end first, so
that a malformed one is reported as such; of an array or an object only the opening bracket is read.
-/

namespace DirtyRegion.Json

/-- A literal name at the front, and what follows it. -/
def readName (name : String) (found : Found) (cs : List Char) : Option (Found × List Char) :=
  if name.toList.isPrefixOf cs then some (found, cs.drop name.length) else none

def Number.found : Number → Found
  | natural n => .natural n
  | negative n => .negative n
  | real x => .real x

/-- A value that is neither an array nor an object, at the front. -/
def readScalar : List Char → Option (Found × List Char)
  | 'n' :: cs => readName "ull" .null cs
  | 't' :: cs => readName "rue" (.boolean true) cs
  | 'f' :: cs => readName "alse" (.boolean false) cs
  | '"' :: cs => (readText cs).map fun r => (.text (String.ofList r.1), r.2)
  | cs => (readNumber cs).map fun r => (r.1.found, r.2)

/-- A found value as an offset. -/
def Found.offset : Found → Except Fault Offset
  | natural n => .ok n
  | negative n => .error (.unfit (.belowZero n))
  | other => .error (.unfit (.wrongType other .offset))

/-- An offset, after blanks, and what follows it. -/
def readOffset (cs : List Char) : Except Fault (Offset × List Char) :=
  match skipBlanks cs with
  | '[' :: _ => .error (.unfit (.wrongType .sequence .offset))
  | '\x7b' :: _ => .error (.unfit (.wrongType .map .offset))
  | cs =>
    match readScalar cs with
    | none => .error .malformed
    | some (found, rest) => found.offset.map (·, rest)

end DirtyRegion.Json
