import Mathlib.Data.List.DropRight
import DirtyRegion.Change.Run
import DirtyRegion.Proofs.Hull

/-!
# Accumulation — the state of a gathering change after any run

A run mixes gathering, attaching, clearing and taking. Its last reset cuts it in two: the version is
decided by the whole run, the spans and the texts only by the steps since.

- `Change.base c steps` is the change that the steps since the last reset began with.
- `Change.sinceReset steps` are these steps.
- `Change.gathered steps` are the extents, other than empty ones, that steps gather.
- `Change.attached base steps` are the texts after steps that began with `base`.

`Change.Accumulates` is the invariant of a run in these terms.

Main statements: `Accumulates.step` (one step keeps the invariant), `accumulates_run` (so does a
run) and `run_closed_form`, which reads the state after a run off the steps.
-/

namespace DirtyRegion

namespace Step

/-- The step leaves nothing but the version. -/
def isReset : Step → Bool
  | clear | take => true
  | _ => false

/-- The extent that the step gathers. -/
def gathered? : Step → Option Extent
  | combine other => some other.toExtent
  | _ => none

/-- The texts that the step attaches. -/
def attached? : Step → Option (Snapshot × Snapshot)
  | attach before after => some (before, after)
  | _ => none

end Step

namespace Change

section Defs

/-- The steps after the last reset, or all of them. -/
def sinceReset (steps : List Step) : List Step :=
  steps.rtakeWhile fun s => !s.isReset

/-- The change from which the steps since the last reset go on: `c` where there is no reset. The
version is left out of account, since no reset touches it. -/
def base (c : Change) (steps : List Step) : Change :=
  if steps.any Step.isReset then blank else c

/-- The extents that steps gather, empty ones left out. -/
def gathered (steps : List Step) : List Extent :=
  Extent.dirty (steps.filterMap Step.gathered?)

/-- The texts of a change that began as `base` after steps without reset. -/
def attached (base : Change) (steps : List Step) : Option Snapshot × Option Snapshot :=
  match (steps.filterMap Step.attached?).getLast? with
  | some (before, after) => (some before, some after)
  | none => (base.beforeText, base.afterText)

/-- The versions that occur among extents. -/
def versions (l : List Extent) : Set ℕ :=
  (fun e : Extent => e.version.toNat) '' {e | e ∈ l}

/-- `d` is what `c` is after `steps`. -/
structure Accumulates (c : Change) (steps : List Step) (d : Change) : Prop where
  version : IsGreatest (insert c.version.toNat (versions (gathered steps))) d.version.toNat
  spans : Extent.Gathers (c.base steps).toExtent (gathered (sinceReset steps)) d.toExtent
  texts : (d.beforeText, d.afterText) = attached (c.base steps) (sinceReset steps)

end Defs

/-! ### One step more -/

section Concat

variable {c d : Change} {steps : List Step} {s : Step}

theorem sinceReset_concat_of_isReset (h : s.isReset = true) : sinceReset (steps ++ [s]) = [] :=
  List.rtakeWhile_concat_neg _ _ _ (by simp [h])

theorem sinceReset_concat (h : s.isReset = false) :
    sinceReset (steps ++ [s]) = sinceReset steps ++ [s] :=
  List.rtakeWhile_concat_pos _ _ _ (by simp [h])

theorem base_concat_of_isReset (h : s.isReset = true) : c.base (steps ++ [s]) = blank := by
  simp [base, h]

theorem base_concat (h : s.isReset = false) : c.base (steps ++ [s]) = c.base steps := by
  simp [base, h]

theorem gathered_concat (steps : List Step) (s : Step) :
    gathered (steps ++ [s]) = gathered steps ++ Extent.dirty s.gathered?.toList := by
  rw [gathered, List.filterMap_append, Extent.dirty_append]
  cases h : s.gathered? <;> simp [gathered, h]

theorem attached_concat_of_none (h : s.attached? = none) :
    attached c (steps ++ [s]) = attached c steps := by
  simp [attached, h]

theorem attached_concat_of_some {before after : Snapshot}
    (h : s.attached? = some (before, after)) :
    attached c (steps ++ [s]) = (some before, some after) := by
  simp [attached, h]

theorem versions_concat (l : List Extent) (e : Extent) :
    versions (l ++ [e]) = insert e.version.toNat (versions l) := by
  rw [versions, setOf_mem_concat, Set.image_insert_eq, versions]

end Concat

/-! ### Runs -/

section Runs

variable {c d : Change} {steps : List Step}

theorem Accumulates.nil (c : Change) : Accumulates c [] c := by
  refine ⟨?_, Extent.Gathers.nil _, rfl⟩
  have hno : versions (gathered []) = ∅ := by simp [versions, gathered]
  rw [hno]
  simp

theorem Accumulates.combine (h : Accumulates c steps d) (other : Change) :
    Accumulates c (steps ++ [.combine other]) (d.combine other) := by
  have hbase : c.base (steps ++ [.combine other]) = c.base steps := base_concat rfl
  have hsince : sinceReset (steps ++ [.combine other]) = sinceReset steps ++ [.combine other] :=
    sinceReset_concat rfl
  -- The version takes the gathered extents of the whole run into account, the spans and the texts
  -- only those since the last reset.
  refine ⟨?_, ?_, ?_⟩
  · rw [gathered_concat]
    show IsGreatest _ (d.toExtent.combine other.toExtent).version.toNat
    rw [Extent.version_combine]
    cases ho : other.toExtent.isEmpty with
    | true =>
      have hno : Extent.dirty (Step.combine other).gathered?.toList = [] :=
        Extent.dirty_singleton_of_isEmpty ho
      rw [hno, List.append_nil, if_pos rfl]
      exact h.version
    | false =>
      have hone : Extent.dirty (Step.combine other).gathered?.toList = [other.toExtent] :=
        Extent.dirty_singleton ho
      have hset : insert c.version.toNat (versions (gathered steps ++ [other.toExtent])) =
          insert other.version.toNat (insert c.version.toNat (versions (gathered steps))) := by
        rw [versions_concat, Set.insert_comm]
      rw [hone, hset, if_neg (by simp), UInt64.toNat_max, Nat.max_comm]
      exact h.version.insert _
  · rw [hbase, hsince, gathered_concat]
    exact h.spans.combine (fun x hx => (Extent.mem_dirty.mp hx).2) other.toExtent
  · rw [hbase, hsince, attached_concat_of_none rfl]
    exact h.texts

theorem Accumulates.attach (h : Accumulates c steps d) (before after : Snapshot) :
    Accumulates c (steps ++ [.attach before after]) (d.attach before after) := by
  have hnone : ∀ l, gathered (l ++ [.attach before after]) = gathered l := fun l => by
    simp [gathered_concat, Step.gathered?]
  refine ⟨?_, ?_, ?_⟩
  · rw [hnone]
    exact h.version
  · rw [base_concat rfl, sinceReset_concat rfl, hnone]
    exact h.spans
  · rw [base_concat rfl, sinceReset_concat rfl, attached_concat_of_some rfl]
    rfl

/-- A reset forgets all but the version: nothing was gathered or attached since. -/
theorem Accumulates.reset (h : Accumulates c steps d) {s : Step} (hs : s.isReset = true) :
    Accumulates c (steps ++ [s]) (blank.withVersion d.version) := by
  have hnone : gathered (steps ++ [s]) = gathered steps := by
    cases s <;> simp_all [gathered_concat, Step.gathered?, Step.isReset]
  refine ⟨?_, ?_, ?_⟩
  · rw [hnone]
    exact h.version
  · rw [base_concat_of_isReset hs, sinceReset_concat_of_isReset hs]
    exact ⟨fun _ => ⟨rfl, rfl⟩, fun hne => absurd rfl hne, fun hne => absurd rfl hne⟩
  · rw [base_concat_of_isReset hs, sinceReset_concat_of_isReset hs]
    rfl

/-- **One step.** Every step keeps the invariant. -/
theorem Accumulates.step (h : Accumulates c steps d) (s : Step) :
    Accumulates c (steps ++ [s]) (s.apply d) := by
  cases s with
  | combine other => exact h.combine other
  | attach before after => exact h.attach before after
  | clear => exact h.reset rfl
  | take => exact h.reset rfl

/-- **A whole run** keeps the invariant. -/
theorem accumulates_run (c : Change) (steps : List Step) : Accumulates c steps (c.run steps) := by
  induction steps using List.reverseRecOn with
  | nil => exact Accumulates.nil c
  | append_singleton steps s ih =>
    rw [run_append]
    exact ih.step s

/-- **The state after a run.** The version is the greatest among the one at the start and those of
all extents gathered, a reset or not. The spans are those of the base where nothing was gathered
since the last reset, and else the hulls of what was gathered since, with the base's own spans
among them only when the base is not empty. The texts are the last attached since, or the base's. -/
theorem run_closed_form (c : Change) (steps : List Step) :
    let d := c.run steps
    let base := c.base steps
    let recent := gathered (sinceReset steps)
    let covered := if base.isEmpty then recent else base.toExtent :: recent
    IsGreatest (insert c.version.toNat (versions (gathered steps))) d.version.toNat ∧
      (if recent = [] then d.before = base.before ∧ d.after = base.after
        else d.before.IsHull (covered.map (·.before)) ∧ d.after.IsHull (covered.map (·.after))) ∧
      (d.beforeText, d.afterText) = attached base (sinceReset steps) := by
  intro d base recent covered
  have h := accumulates_run c steps
  refine ⟨h.version, ?_, h.texts⟩
  split_ifs with hr
  · exact h.spans.of_nil hr
  · exact ⟨h.spans.before_hull hr, h.spans.after_hull hr⟩

end Runs

end Change

end DirtyRegion
