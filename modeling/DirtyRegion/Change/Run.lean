import DirtyRegion.Change.Journal

/-!
# Runs — steps on one gathering change

A `Step` is what a producer or a consumer does to a gathering change: gather another change, attach
texts, clear, or take. `Change.run` does steps from the left, `Change.journal` lists one entry for
each of them, and `Change.takings` lists the changes that the consumer got.

Main statements: `run_append`, `journal_append` and `takings_append` cut a run in two, and
`length_journal` counts one entry per step.
-/

namespace DirtyRegion

/-- What is done to a gathering change. -/
inductive Step where
  | combine (other : Change)
  | attach (before after : Snapshot)
  | clear
  | take

namespace Step

def apply (c : Change) : Step → Change
  | combine other => c.combine other
  | attach before after => c.attach before after
  | clear => c.clear
  | take => c.take.2

/-- The entry of the step. -/
def entry (c : Change) : Step → Entry
  | combine other => .ofCombine c.toExtent other.toExtent
  | attach before after => .attaching c.toExtent before.length after.length
  | clear => .clearing c.toExtent
  | take => .took c.take.1.toExtent

/-- The change that the step hands to the consumer. -/
def taking? (c : Change) : Step → Option Change
  | take => some c.take.1
  | _ => none

end Step

namespace Change

/-- The change after steps from the left. -/
def run (c : Change) (steps : List Step) : Change :=
  steps.foldl Step.apply c

/-- The entries of steps from the left. -/
def journal (c : Change) : List Step → List Entry
  | [] => []
  | s :: steps => s.entry c :: journal (s.apply c) steps

/-- The changes that steps from the left hand to the consumer. -/
def takings (c : Change) : List Step → List Change
  | [] => []
  | s :: steps => (s.taking? c).toList ++ takings (s.apply c) steps

/-- The steps that gather a change and put it between two texts. -/
def betweenSteps (c : Change) (before after : Snapshot) : List Step :=
  [.combine c, .attach before after]

/-! ### Cutting a run in two -/

@[simp] theorem run_nil (c : Change) : c.run [] = c := rfl

@[simp] theorem run_cons (c : Change) (s : Step) (steps : List Step) :
    c.run (s :: steps) = (s.apply c).run steps := rfl

theorem run_append (c : Change) (xs ys : List Step) : c.run (xs ++ ys) = (c.run xs).run ys :=
  List.foldl_append

theorem journal_append (c : Change) (xs ys : List Step) :
    c.journal (xs ++ ys) = c.journal xs ++ (c.run xs).journal ys := by
  induction xs generalizing c with
  | nil => rfl
  | cons s xs ih => simp [journal, ih]

theorem takings_append (c : Change) (xs ys : List Step) :
    c.takings (xs ++ ys) = c.takings xs ++ (c.run xs).takings ys := by
  induction xs generalizing c with
  | nil => rfl
  | cons s xs ih => simp [takings, ih]

@[simp] theorem length_journal (c : Change) (steps : List Step) :
    (c.journal steps).length = steps.length := by
  induction steps generalizing c with
  | nil => rfl
  | cons s steps ih => simp [journal, ih]

end Change

end DirtyRegion
