import DirtyRegion.Proofs.Enclosure
import DirtyRegion.Proofs.Slice

/-!
# Distances — when text after a change has moved by a signed number

The distance of an extent takes three steps that may fail: either length has to be a signed number,
and so has their difference. The third step never fails where the first two do not, for the
difference of two numbers from zero on is nearer to zero than one of them. So the lengths decide, and
they only grow by gathering: a distance that is there shows that every extent gathered so far has one.

Main statements: `Extent.shift?_eq_some_iff`, `Extent.Absorbs.exists_shift` and
`Change.shift_is_exact`.
-/

namespace DirtyRegion

namespace Span

theorem Encloses.toNat_length_le {s t : Span} (h : s.Encloses t) :
    t.length.toNat ≤ s.length.toNat := by
  rw [encloses_iff] at h
  rw [toNat_length, toNat_length]
  omega

end Span

namespace Extent

variable {e x : Extent} {d : ℤ}

/-- The two lengths decide whether there is a distance, and it is their exact difference. -/
theorem shift?_eq_some_iff :
    e.shift? = some d ↔
      (e.before.length.toNat < distanceCount ∧ e.after.length.toNat < distanceCount) ∧
        d = (e.after.length.toNat : ℤ) - e.before.length.toNat := by
  constructor
  · intro h
    simp only [shift?, Option.bind_eq_bind, Option.bind_eq_some_iff] at h
    obtain ⟨old, hold, new, hnew, h⟩ := h
    obtain ⟨rfl, hbefore⟩ := Offset.signed?_natCast_iff.mp hold
    obtain ⟨rfl, hafter⟩ := Offset.signed?_natCast_iff.mp hnew
    exact ⟨⟨hbefore, hafter⟩, (Offset.signed?_eq_some_iff.mp h).1⟩
  · rintro ⟨⟨hbefore, hafter⟩, rfl⟩
    exact shift?_of_lt hbefore hafter

theorem exists_shift_iff :
    (∃ d, e.shift? = some d) ↔
      e.before.length.toNat < distanceCount ∧ e.after.length.toNat < distanceCount := by
  simp [shift?_eq_some_iff]

/-- An extent with a distance absorbs only such extents: an empty one moves nothing, and any other one
has spans that are no longer. -/
theorem Absorbs.exists_shift (h : e.Absorbs x) (he : ∃ d, e.shift? = some d) :
    ∃ d, x.shift? = some d := by
  rw [exists_shift_iff] at he ⊢
  rcases h with hempty | ⟨hbefore, hafter, -⟩
  · rw [isEmpty_iff, ← UInt64.toNat_inj, ← UInt64.toNat_inj] at hempty
    rw [Span.toNat_length, Span.toNat_length, hempty.1, hempty.2, Nat.sub_self, Nat.sub_self]
    decide
  · have hold := hbefore.toNat_length_le
    have hnew := hafter.toNat_length_le
    omega

end Extent

namespace Change

/-- **Distances are exact.** A change has a distance exactly if both its lengths are below `2 ^ 63`, and
it is the difference of the two as integers. Where both lengths are signed numbers their difference
always is one, and it never is the least signed number. What two changes are gathered as has a
distance only if both of them have one; so has what they are gathered as in any run up to a reset. -/
theorem shift_is_exact :
    (∀ (c : Change) (d : ℤ), c.shift? = some d ↔
      (c.before.length.toNat < distanceCount ∧ c.after.length.toNat < distanceCount) ∧
        d = (c.after.length.toNat : ℤ) - c.before.length.toNat) ∧
    (∀ (c : Change) (d : ℤ), c.shift? = some d →
      -(distanceCount - 1 : ℤ) ≤ d ∧ d ≤ distanceCount - 1) ∧
    (∀ (c : Change) (old new : ℤ), Offset.signed? c.before.length.toNat = some old →
      Offset.signed? c.after.length.toNat = some new →
        Offset.signed? (new - old) = some (new - old) ∧ c.shift? = some (new - old)) ∧
    (∀ a b : Change, (∃ d, (a.combine b).shift? = some d) →
      (∃ d, a.shift? = some d) ∧ ∃ d, b.shift? = some d) ∧
    ∀ (c other : Change) (earlier later : List Step), (∀ s ∈ later, s.isReset = false) →
      (∃ d, (c.run (earlier ++ .combine other :: later)).shift? = some d) →
        ∃ d, other.shift? = some d := by
  refine ⟨fun c d => Extent.shift?_eq_some_iff, ?_, ?_, ?_, ?_⟩
  · intro c d h
    obtain ⟨⟨hbefore, hafter⟩, rfl⟩ := Extent.shift?_eq_some_iff.mp h
    omega
  · intro c old new hold hnew
    obtain ⟨rfl, hbefore⟩ := Offset.signed?_natCast_iff.mp hold
    obtain ⟨rfl, hafter⟩ := Offset.signed?_natCast_iff.mp hnew
    exact ⟨Offset.signed?_sub_of_lt hbefore hafter, Extent.shift?_of_lt hbefore hafter⟩
  · intro a b h
    have ha : (a.toExtent.combine b.toExtent).Absorbs a.toExtent :=
      (Extent.absorbs_self _).combine _
    have hb : (a.toExtent.combine b.toExtent).Absorbs b.toExtent := Extent.absorbs_combine _ _
    exact ⟨ha.exists_shift h, hb.exists_shift h⟩
  · intro c other earlier later hlater h
    rw [run_append, run_cons] at h
    exact (absorbs_run (Extent.absorbs_combine _ _) hlater).exists_shift h

/-- A change of the greatest length that has a distance, one whose earlier span is one longer, and the
two gathered. -/
theorem longest_shifts_are_exact :
    ((ofEditAt 0 0 9223372036854775807 0).shift? = some (-9223372036854775807) ∧
      (-(distanceCount - 1 : ℤ) ≤ -9223372036854775807)) ∧
    (¬∃ d, (ofEditAt 0 0 9223372036854775808 0).shift? = some d) ∧
    ¬∃ d, ((ofEditAt 0 0 9223372036854775807 0).combine
      (ofEditAt 0 0 9223372036854775808 0)).shift? = some d := by
  obtain ⟨hexact, hbounds, -, hgather, -⟩ := shift_is_exact
  have hlongest : (ofEditAt 0 0 9223372036854775807 0).shift? = some (-9223372036854775807) :=
    (hexact _ _).mpr (by decide)
  have htoo : ¬∃ d, (ofEditAt 0 0 9223372036854775808 0).shift? = some d := by
    rintro ⟨d, hd⟩
    exact absurd ((hexact _ _).mp hd).1 (by decide)
  exact ⟨⟨hlongest, (hbounds _ _ hlongest).1⟩, htoo, fun h => htoo (hgather _ _ h).2⟩

end Change

end DirtyRegion
