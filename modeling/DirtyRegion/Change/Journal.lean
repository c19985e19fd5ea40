import DirtyRegion.Change.Basic

/-!
# Journal entries — what a change says about its own history

Every step on a gathering change leaves one `Entry`. An entry names extents only, so its text does
not depend on the texts that a change speaks of, apart from their lengths. Attaching texts is
reported at the level `debug`, all else at the level `trace`.
-/

namespace DirtyRegion

/-- How much an entry matters. -/
inductive Level where
  | debug
  | trace
  deriving DecidableEq, Repr

/-- The level as it stands in front of an entry. -/
def Level.name : Level → String
  | debug => "DEBUG"
  | trace => "TRACE"

/-- What one step did to a change. -/
inductive Entry where
  /-- Texts of the given lengths come to the extent as it stands. -/
  | attaching (extent : Extent) (before after : Nat)
  | clearing (extent : Extent)
  /-- Another extent was empty and changed nothing. -/
  | ignoring (other : Extent)
  /-- Another extent came into an empty one. -/
  | adopting (other : Extent)
  /-- Another extent was gathered, and `extent` has the spans after that but the version before. -/
  | combined (other extent : Extent)
  | took (extent : Extent)
  deriving DecidableEq, Repr

namespace Entry

def level : Entry → Level
  | attaching .. => .debug
  | _ => .trace

def text : Entry → String
  | attaching e m n =>
    "Attaching snapshots to " ++ e.display ++ " (old: " ++ m.repr ++ " chars, new: " ++ n.repr
      ++ " chars)"
  | clearing e => "Clearing " ++ e.display
  | ignoring o => "Ignoring empty change " ++ o.display
  | adopting o => "Adopting " ++ o.display ++ " into empty accumulator"
  | combined o e => "Combined " ++ o.display ++ " into " ++ e.display
  | took e => "Took pending change " ++ e.display

/-- The entry in words, after its level. -/
def line (e : Entry) : String :=
  e.level.name ++ " " ++ e.text

/-- The entry of gathering `other` into `e`. -/
def ofCombine (e other : Extent) : Entry :=
  match e.reception other with
  | .ignored => ignoring other
  | .adopted => adopting other
  | .covered => combined other { e.cover other with version := e.version }

end Entry

end DirtyRegion
