import DirtyRegion.Json.Value
import DirtyRegion.Span.Basic

/-!
# Spans in JSON

A span is written as an object with the keys `start` and `end`, and read from such an object, with
its keys in either order, or from an array of two offsets. Reading goes from left to right and stops
at the first fault. The bounds are compared as soon as the object or array closes; only then is the
text after it looked at, which has to be blank.

- `readArray`, `readMembers`, `readObject` read the two forms up to the closing bracket.
- `readSpan` reads a whole text, `Span.toJson` writes one.
-/

namespace DirtyRegion.Json

/-! ### Arrays -/

/-- Two offsets up to the closing bracket, after the opening one. -/
def readArray (cs : List Char) : Except Fault ((Offset × Offset) × List Char) :=
  match skipBlanks cs with
  | ']' :: _ => .error (.unfit (.wrongLength 0))
  | cs => do
    let (start, cs) ← readOffset cs
    match skipBlanks cs with
    | ']' :: _ => .error (.unfit (.wrongLength 1))
    | ',' :: cs =>
      let (stop, cs) ← readOffset cs
      match skipBlanks cs with
      | ']' :: rest => .ok ((start, stop), rest)
      | _ => .error .malformed
    | _ => .error .malformed

/-! ### Objects -/

/-- The field with a given key. -/
def Field.ofKey? (key : String) : Option Field :=
  if key = Field.start.key then some .start
  else if key = Field.stop.key then some .stop
  else none

/-- A key, after its opening quote, and what follows its closing quote. -/
def readKey (cs : List Char) : Except Fault (Field × List Char) :=
  match readText cs with
  | none => .error .malformed
  | some (key, rest) =>
    match Field.ofKey? (String.ofList key) with
    | none => .error (.unfit (.unknownField (String.ofList key)))
    | some f => .ok (f, rest)

/-- The value of a member, after its key. -/
def readMemberValue (cs : List Char) : Except Fault (Offset × List Char) :=
  match skipBlanks cs with
  | ':' :: cs => readOffset cs
  | _ => .error .malformed

/-- Members up to the closing brace, after the opening quote of the first of them. The fields in
`free` have not come yet; those that have come are in `got`. -/
def readMembers (free : List Field) (got : List (Field × Offset)) (cs : List Char) :
    Except Fault (List (Field × Offset) × List Char) :=
  match readKey cs with
  | .error e => .error e
  | .ok (f, cs) =>
    if _h : f ∈ free then
      match readMemberValue cs with
      | .error e => .error e
      | .ok (n, cs) =>
        match skipBlanks cs with
        | '\x7d' :: rest => .ok ((f, n) :: got, rest)
        | ',' :: cs =>
          match skipBlanks cs with
          | '"' :: cs => readMembers (free.erase f) ((f, n) :: got) cs
          | _ => .error .malformed
        | _ => .error .malformed
    else .error (.unfit (.duplicateField f))
termination_by free.length
decreasing_by
  rw [List.length_erase_of_mem _h]
  exact Nat.sub_one_lt (Nat.ne_of_gt (List.length_pos_of_mem _h))

/-- The value of a field among members. -/
def memberValue (members : List (Field × Offset)) (f : Field) : Except Fault Offset :=
  match members.lookup f with
  | none => .error (.unfit (.missingField f))
  | some n => .ok n

/-- The two bounds in an object, after its opening brace. -/
def readObject (cs : List Char) : Except Fault ((Offset × Offset) × List Char) := do
  let (members, rest) ← match skipBlanks cs with
    | '\x7d' :: rest => .ok ([], rest)
    | '"' :: cs => readMembers [.start, .stop] [] cs
    | _ => .error .malformed
  let start ← memberValue members .start
  let stop ← memberValue members .stop
  .ok ((start, stop), rest)

/-! ### Whole texts -/

/-- The two bounds at the front of a text, after blanks. -/
def readBounds (cs : List Char) : Except Fault ((Offset × Offset) × List Char) :=
  match skipBlanks cs with
  | '[' :: cs => readArray cs
  | '\x7b' :: cs => readObject cs
  | cs =>
    match readScalar cs with
    | none => .error .malformed
    | some (found, _) => .error (.unfit (.wrongType found .span))

/-- The span with two bounds that were read. -/
def checkBounds (bounds : Offset × Offset) : Except Fault Span :=
  (Span.ofPair bounds).mapError fun e => .unfit (.noSpan e)

/-- The span that a text denotes. -/
def readSpan (s : String) : Except Fault Span := do
  let (bounds, rest) ← readBounds s.toList
  let span ← checkBounds bounds
  if skipBlanks rest = [] then .ok span else .error .malformed

/-! ### Texts at a glance -/

example : readSpan "[2, 6]" = .ok ⟨2, 6, by decide⟩ := by cbv
example : readSpan "\x7b\"end\": 6, \"start\": 2\x7d" = .ok ⟨2, 6, by decide⟩ := by cbv
example : readSpan "[6, 2] x" = .error (.unfit (.noSpan (.endBeforeStart 6 2))) := by cbv
example : readSpan "[2, 6] x" = .error .malformed := by cbv
example : readSpan "[2, 6, 9]" = .error .malformed := by cbv
example : readSpan "\x7b\"start\": 2, \"start\"" =
    .error (.unfit (.duplicateField .start)) := by cbv

end DirtyRegion.Json

namespace DirtyRegion.Span

/-- The span as a JSON object. -/
def toJson (s : Span) : String :=
  "\x7b\"start\":" ++ s.start.toNat.repr ++ ",\"end\":" ++ s.stop.toNat.repr ++ "\x7d"

end DirtyRegion.Span
