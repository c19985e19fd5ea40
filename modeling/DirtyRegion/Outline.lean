/-!
# Outlines — values written out with their fields

An `Outline` is what a diagnostic text shows of a value: natural numbers, optional parts, and named
groups of named fields. It has two layouts. `Outline.line` keeps all on one line, as in
`Point { x: 1, y: Some(2) }`. `Outline.block` opens every group and every present part over
several lines, each level four blanks further in and each entry closed by a comma.
-/

namespace DirtyRegion

/-- What a diagnostic text shows of a value. -/
inductive Outline where
  | number (n : Nat)
  /-- An optional part that is not there. -/
  | absent
  | present (value : Outline)
  /-- A named group of named fields, in the order in which they are written. -/
  | group (title : String) (fields : List (String × Outline))
  deriving Repr

namespace Outline

/-- The outline of a number that may be missing. -/
def ofOption : Option Nat → Outline
  | none => absent
  | some n => present (number n)

/-! ### On one line -/

mutual

/-- The outline on one line. -/
def line : Outline → String
  | number n => n.repr
  | absent => "None"
  | present value => "Some(" ++ value.line ++ ")"
  | group title fields => title ++ " \x7b " ++ lineFields fields ++ " \x7d"

/-- Fields on one line, with a comma and a blank between two of them. -/
def lineFields : List (String × Outline) → String
  | [] => ""
  | [(key, value)] => key ++ ": " ++ value.line
  | (key, value) :: rest => key ++ ": " ++ value.line ++ ", " ++ lineFields rest

end

/-! ### Over several lines -/

/-- The blanks before a line that stands `depth` levels deep. -/
def indent (depth : Nat) : String :=
  String.ofList (List.replicate (4 * depth) ' ')

mutual

/-- The outline over several lines, when its first line stands `depth` levels deep. -/
def blockAt (depth : Nat) : Outline → String
  | number n => n.repr
  | absent => "None"
  | present value =>
    "Some(\n" ++ indent (depth + 1) ++ value.blockAt (depth + 1) ++ ",\n" ++ indent depth ++ ")"
  | group title fields =>
    title ++ " \x7b\n" ++ blockFields (depth + 1) fields ++ indent depth ++ "\x7d"

/-- Fields over several lines, each on lines of its own and closed by a comma. -/
def blockFields (depth : Nat) : List (String × Outline) → String
  | [] => ""
  | (key, value) :: rest =>
    indent depth ++ key ++ ": " ++ value.blockAt depth ++ ",\n" ++ blockFields depth rest

end

/-- The outline over several lines. -/
def block (o : Outline) : String :=
  o.blockAt 0

/-! ### Both layouts at a glance -/

example : (group "Point" [("x", number 1), ("y", ofOption (some 2))]).line =
    "Point \x7b x: 1, y: Some(2) \x7d" := by decide

example : (group "Point" [("x", number 1), ("y", ofOption (some 2))]).block =
    "Point \x7b\n    x: 1,\n    y: Some(\n        2,\n    ),\n\x7d" := by decide +kernel

end Outline

end DirtyRegion
