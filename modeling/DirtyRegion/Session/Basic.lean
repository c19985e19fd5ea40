import DirtyRegion.Change.Journal
import DirtyRegion.Span.Recipe
import DirtyRegion.Text.Query

/-!
# Sessions — named snapshots and named changes

A `Session` gives names to snapshots and changes. A snapshot may have several names, and its first
name stands for it in a `View` of a change. A snapshot's name keeps its first meaning; a change's
name can be bound again. A new snapshot is numbered by the names bound so far, and no snapshot of
the session has that number yet.

Main statements: `change_bindChange_self` and `change_bindChange_of_ne`, binding a name to a change
changes the meaning of that name alone.
-/

namespace DirtyRegion

structure Session where
  /-- The names of snapshots, in the order in which they were bound. -/
  snapshots : List (String × Snapshot)
  /-- The names of changes, the one bound last in front. -/
  changes : List (String × Change)

/-- Why a session refuses a command. -/
inductive Failure where
  | refused (r : Refusal)
  | unknownName (name : String)
  deriving DecidableEq, Repr

/-- A change as a session shows it, with the first name of each text. -/
structure View where
  extent : Extent
  beforeName : Option String
  afterName : Option String
  deriving DecidableEq, Repr

/-- All texts that a change has to show. -/
structure Showing where
  display : String
  outline : Outline
  beforeSlice : Option String
  afterSlice : Option String

namespace Session

def start : Session := ⟨[], []⟩

/-! ### Names -/

def snapshot (s : Session) (name : String) : Except Failure Snapshot :=
  match s.snapshots.lookup name with
  | some t => .ok t
  | none => .error (.unknownName name)

def change (s : Session) (name : String) : Except Failure Change :=
  match s.changes.lookup name with
  | some c => .ok c
  | none => .error (.unknownName name)

/-- The snapshot with a name, where there may be no name. -/
def snapshotOrNone (s : Session) : Option String → Except Failure (Option Snapshot)
  | none => .ok none
  | some name => (s.snapshot name).map some

/-- The session with one more name for a snapshot. -/
def bindSnapshot (s : Session) (name : String) (t : Snapshot) : Session :=
  { s with snapshots := s.snapshots ++ [(name, t)] }

/-- The session with a change under a name, in the place of any that was there. -/
def bindChange (s : Session) (name : String) (c : Change) : Session :=
  { s with changes := (name, c) :: s.changes.filter fun p => p.1 != name }

/-- A snapshot that the session does not have yet. -/
def freshSnapshot (s : Session) (content : Content) : Snapshot :=
  ⟨s.snapshots.length, content⟩

/-- The first name of a snapshot. -/
def nameOf? (s : Session) (t : Snapshot) : Option String :=
  (s.snapshots.find? fun p => p.2 == t).map Prod.fst

/-! ### Looking at changes -/

def view (s : Session) (c : Change) : View :=
  ⟨c.toExtent, c.beforeText.bind s.nameOf?, c.afterText.bind s.nameOf?⟩

/-- Binding a name to a change makes the name mean that change. -/
theorem change_bindChange_self (s : Session) (name : String) (c : Change) :
    (s.bindChange name c).change name = .ok c := by
  simp [change, bindChange]

/-- Binding a name to a change leaves all other names as they were. -/
theorem change_bindChange_of_ne (s : Session) {name other : String} (c : Change)
    (h : other ≠ name) : (s.bindChange name c).change other = s.change other := by
  have hl : (s.changes.filter fun p => p.1 != name).lookup other = s.changes.lookup other := by
    induction s.changes with
    | nil => rfl
    | cons p ps ih =>
      by_cases hp : p.1 = name
      · have hne : (other == p.1) = false := by
          rw [hp]
          exact beq_false_of_ne h
        rw [List.filter_cons_of_neg (by simp [hp]), ih, List.lookup_cons, hne]
      · rw [List.filter_cons_of_pos (by simp [hp]), List.lookup_cons, List.lookup_cons, ih]
  have hne : (other == name) = false := beq_false_of_ne h
  simp [change, bindChange, List.lookup_cons, hne, hl]

end Session

/-- All texts that a change has to show. -/
def Change.showing (c : Change) : Showing :=
  ⟨c.display, c.outline, c.beforeSlice?, c.afterSlice?⟩

end DirtyRegion
