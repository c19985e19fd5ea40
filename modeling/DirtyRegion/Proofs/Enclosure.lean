import DirtyRegion.Proofs.Accumulation
import DirtyRegion.Proofs.Batch

/-!
# Enclosure — when gathering changes nothing

A change may be delivered late or twice. `Extent.Absorbs e x` says that `x` has nothing to add to
`e`: it is empty, or its spans lie inside those of `e` and it is no newer. To be absorbed is to leave
the extent as it is, so that the laws of gathering carry over: what was gathered once is absorbed, and
stays so however much comes after it, until a reset.

Main statements: `combine_eq_self_iff` (absorbing is changing nothing), `absorbs_step` (one step keeps
it), `absorbs_run` (so does a run without reset) and `combine_changes_nothing`.
-/

namespace DirtyRegion

namespace Span

/-- Both bounds of `t` lie inside `s`. A span of no characters has to lie there, too. -/
def Encloses (s t : Span) : Prop :=
  s.start ≤ t.start ∧ t.stop ≤ s.stop

instance (s t : Span) : Decidable (s.Encloses t) :=
  inferInstanceAs (Decidable (_ ∧ _))

theorem encloses_iff {s t : Span} :
    s.Encloses t ↔ s.start.toNat ≤ t.start.toNat ∧ t.stop.toNat ≤ s.stop.toNat := by
  rw [Encloses, UInt64.le_iff_toNat_le, UInt64.le_iff_toNat_le]

/-- A cover is larger than its first span unless that one encloses the other. -/
theorem cover_eq_left_iff {s t : Span} : s.cover t = s ↔ s.Encloses t := by
  rw [encloses_iff]
  constructor
  · intro h
    rw [← h, toNat_cover_start, toNat_cover_stop]
    omega
  · rintro ⟨hstart, hstop⟩
    apply ext_toNat
    · rw [toNat_cover_start, Nat.min_eq_left hstart]
    · rw [toNat_cover_stop, Nat.max_eq_left hstop]

theorem encloses_cover_left (s t : Span) : (s.cover t).Encloses s := by
  rw [encloses_iff, toNat_cover_start, toNat_cover_stop]
  omega

theorem encloses_cover_right (s t : Span) : (s.cover t).Encloses t :=
  cover_comm t s ▸ encloses_cover_left t s

end Span

namespace Extent

variable {e x : Extent}

/-- `x` has nothing to add to `e`. -/
def Absorbs (e x : Extent) : Prop :=
  x.isEmpty = true ∨
    e.before.Encloses x.before ∧ e.after.Encloses x.after ∧ x.version ≤ e.version

instance (e x : Extent) : Decidable (e.Absorbs x) :=
  inferInstanceAs (Decidable (_ ∨ _))

theorem cover_eq_left_iff :
    e.cover x = e ↔
      e.before.Encloses x.before ∧ e.after.Encloses x.after ∧ x.version ≤ e.version := by
  rw [← Span.cover_eq_left_iff, ← Span.cover_eq_left_iff, ← Offset.max_eq_left_iff]
  constructor
  · intro h
    exact ⟨congrArg before h, congrArg after h, congrArg version h⟩
  · rintro ⟨hbefore, hafter, hversion⟩
    exact Extent.ext hversion hbefore hafter

/-- **Absorbing is changing nothing.** An empty extent that takes another one over always changes,
even where a span of the other one has no characters: it cannot be empty any more. -/
theorem combine_eq_self_iff : e.combine x = e ↔ e.Absorbs x := by
  cases hx : x.isEmpty with
  | true => simp [combine_of_ignored e hx, Absorbs, hx]
  | false =>
    have hsplit : e.Absorbs x ↔ e.cover x = e := by
      simp [Absorbs, hx, cover_eq_left_iff]
    -- Where `e` is empty both sides fail: what `e` comes to is not empty, gathered or covered.
    rw [hsplit]
    cases he : e.isEmpty with
    | false => rw [combine_of_covered hx he]
    | true =>
      constructor
      · intro h
        have hfull := isEmpty_combine e x
        rw [h, he, hx] at hfull
        cases hfull
      · intro h
        have hfull := isEmpty_cover e hx
        rw [h, he] at hfull
        cases hfull

/-- What was gathered is absorbed. -/
theorem absorbs_combine (e x : Extent) : (e.combine x).Absorbs x :=
  combine_eq_self_iff.mp (combine_combine_self e x)

/-- What is absorbed stays so when more is gathered. -/
theorem Absorbs.combine (h : e.Absorbs x) (y : Extent) : (e.combine y).Absorbs x := by
  rw [← combine_eq_self_iff] at h ⊢
  rw [combine_right_comm, h]

/-- An extent absorbs itself. -/
theorem absorbs_self (e : Extent) : e.Absorbs e :=
  combine_eq_self_iff.mp (combine_self e)

end Extent

namespace Change

variable {c : Change} {x : Extent} {steps : List Step}

theorem combine_beq_self_iff {c d : Change} :
    (c.combine d == c) = true ↔ c.toExtent.Absorbs d.toExtent := by
  rw [beq_iff, toExtent_combine, Extent.combine_eq_self_iff, beforeText_combine, afterText_combine]
  simp

/-- **One step.** Only a reset gives up what is absorbed. -/
theorem absorbs_step (h : c.toExtent.Absorbs x) {s : Step} (hs : s.isReset = false) :
    (s.apply c).toExtent.Absorbs x := by
  cases s with
  | combine other => exact h.combine other.toExtent
  | attach before after => exact h
  | clear => cases hs
  | take => cases hs

/-- **A whole run** without reset gives up nothing. -/
theorem absorbs_run (h : c.toExtent.Absorbs x) (hsteps : ∀ s ∈ steps, s.isReset = false) :
    (c.run steps).toExtent.Absorbs x := by
  induction steps generalizing c with
  | nil => exact h
  | cons s steps ih =>
    obtain ⟨hs, hrest⟩ := List.forall_mem_cons.mp hsteps
    exact ih (absorbs_step h hs) hrest

/-- **When gathering changes nothing.** Gathering `b` leaves `a` as it is exactly if `b` is empty, or
both its spans lie inside those of `a` and it is no newer. So a change that was gathered once may come
again at any time before a reset, and a change may be gathered into itself. -/
theorem combine_changes_nothing :
    (∀ a b : Change, (a.combine b == a) = true ↔
      b.isEmpty = true ∨
        a.before.Encloses b.before ∧ a.after.Encloses b.after ∧ b.version ≤ a.version) ∧
    (∀ (c d : Change) (earlier later : List Step), (∀ s ∈ later, s.isReset = false) →
      ((c.run (earlier ++ .combine d :: later)).combine d ==
        c.run (earlier ++ .combine d :: later)) = true) ∧
    ∀ c : Change, (c.combine c == c) = true := by
  refine ⟨fun a b => combine_beq_self_iff, ?_, ?_⟩
  · intro c d earlier later hlater
    rw [combine_beq_self_iff, run_append, run_cons]
    exact absorbs_run (Extent.absorbs_combine _ _) hlater
  · intro c
    exact combine_beq_self_iff.mpr (Extent.absorbs_self _)

/-- An insertion and new texts. -/
def sequel : List Step :=
  [.combine (ofEditAt 7 2 0 3), .attach ⟨0, .plain "abcdef"⟩ ⟨1, .plain "abcdefghi"⟩]

/-- A deletion comes again after `sequel`, and once more after a reset. -/
theorem repeated_deletion_changes_nothing :
    (∀ s ∈ sequel, s.isReset = false) ∧
      let c := (ofEditAt 4 9 0 0).run ([.take] ++ .combine (ofEditAt 5 8 1 0) :: sequel)
      (c.combine (ofEditAt 5 8 1 0) == c) = true ∧
        (c.clear.combine (ofEditAt 5 8 1 0) == c.clear) = false := by
  have hsequel : ∀ s ∈ sequel, s.isReset = false := by simp [sequel, Step.isReset]
  obtain ⟨-, hagain, -⟩ := combine_changes_nothing
  exact ⟨hsequel, hagain (ofEditAt 4 9 0 0) (ofEditAt 5 8 1 0) [.take] sequel hsequel, by decide⟩

end Change

end DirtyRegion
