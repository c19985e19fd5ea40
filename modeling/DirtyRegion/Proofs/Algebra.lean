import DirtyRegion.Change.Basic
import DirtyRegion.Proofs.Hull

/-!
# The algebra of gathering — when nesting and order play a part

`Extent.combine` is a least cover on extents that are not empty, so on these it is associative,
commutative and idempotent. An empty extent is ignored on the right and gives its place up on the
left, but on the left it still leaves its version. That version is all that nesting and order can
show of an empty extent.

Main statements: `combine_assoc_of_full` and `combine_comm_of_full` (no empty extent in the way),
`combine_assoc_iff` and `combine_comm_iff` (the exact conditions for all extents), and
`Change.combine_algebra`, which adds the texts.
-/

namespace DirtyRegion

namespace Extent

variable {a b c : Extent}

/-! ### What is empty after gathering -/

theorem isEmpty_cover (a : Extent) (hb : b.isEmpty = false) : (a.cover b).isEmpty = false := by
  refine isEmpty_of_enclosed ⟨?_, ?_⟩ ⟨?_, ?_⟩ hb <;> simp [cover]

/-- What is gathered is empty only if nothing was there and nothing came. -/
theorem isEmpty_combine (a b : Extent) : (a.combine b).isEmpty = (a.isEmpty && b.isEmpty) := by
  cases hb : b.isEmpty with
  | true => rw [combine_of_ignored a hb, Bool.and_true]
  | false =>
    rw [Bool.and_false]
    cases ha : a.isEmpty with
    | true => exact (combine_of_adopted hb ha) ▸ hb
    | false => exact (combine_of_covered hb ha) ▸ isEmpty_cover a hb

/-! ### Extents that are not empty -/

theorem cover_comm (a b : Extent) : a.cover b = b.cover a :=
  Extent.ext (Offset.max_comm _ _) (Span.cover_comm _ _) (Span.cover_comm _ _)

theorem cover_assoc (a b c : Extent) : (a.cover b).cover c = a.cover (b.cover c) :=
  Extent.ext (Offset.max_assoc _ _ _) (Span.cover_assoc _ _ _) (Span.cover_assoc _ _ _)

theorem combine_comm_of_full (ha : a.isEmpty = false) (hb : b.isEmpty = false) :
    a.combine b = b.combine a := by
  rw [combine_of_covered hb ha, combine_of_covered ha hb, cover_comm]

/-- Gathering the same extent again changes nothing. -/
theorem combine_self (a : Extent) : a.combine a = a := by
  cases ha : a.isEmpty with
  | true => exact combine_of_ignored a ha
  | false =>
    rw [combine_of_covered ha ha]
    exact Extent.ext (Offset.max_eq_left_iff.mpr (UInt64.le_refl _)) (Span.cover_self _)
      (Span.cover_self _)

/-- Nesting plays no part around an extent that is not empty. -/
theorem combine_assoc_of_full (a : Extent) (hb : b.isEmpty = false) (c : Extent) :
    (a.combine b).combine c = a.combine (b.combine c) := by
  cases hc : c.isEmpty with
  | true => rw [combine_of_ignored _ hc, combine_of_ignored _ hc]
  | false =>
    have hab : (a.combine b).isEmpty = false := by rw [isEmpty_combine, hb, Bool.and_false]
    have hbc : (b.cover c).isEmpty = false := isEmpty_cover b hc
    rw [combine_of_covered hc hab, combine_of_covered hc hb]
    cases ha : a.isEmpty with
    | true =>
      rw [combine_of_adopted hb ha, combine_of_adopted hbc ha]
      exact Extent.ext (Offset.max_assoc _ _ _) rfl rfl
    | false =>
      rw [combine_of_covered hb ha, combine_of_covered hbc ha]
      exact cover_assoc a b c

/-! ### Empty extents -/

/-- Around an empty extent all but the version is the same: nested to the right, the empty extent
hands its version on. -/
theorem combine_combine_of_empty (a : Extent) (hb : b.isEmpty = true) (hc : c.isEmpty = false) :
    a.combine (b.combine c) =
      { (a.combine b).combine c with version := max a.version (max b.version c.version) } := by
  have hbc : (b.combine c).isEmpty = false := by rw [isEmpty_combine, hc, Bool.and_false]
  rw [combine_of_ignored a hb]
  cases ha : a.isEmpty with
  | true =>
    rw [combine_of_adopted hbc ha, combine_of_adopted hc hb, combine_of_adopted hc ha]
  | false =>
    rw [combine_of_covered hbc ha, combine_of_adopted hc hb, combine_of_covered hc ha]
    rfl

/-- Nesting never plays a part for the spans. -/
theorem spans_combine_assoc (a b c : Extent) :
    ((a.combine b).combine c).before = (a.combine (b.combine c)).before ∧
      ((a.combine b).combine c).after = (a.combine (b.combine c)).after := by
  cases hb : b.isEmpty with
  | false =>
    rw [combine_assoc_of_full a hb c]
    exact ⟨rfl, rfl⟩
  | true =>
    cases hc : c.isEmpty with
    | true =>
      rw [combine_of_ignored _ hc, combine_of_ignored _ hc]
      exact ⟨rfl, rfl⟩
    | false =>
      rw [combine_combine_of_empty a hb hc]
      exact ⟨rfl, rfl⟩

/-- **Nesting.** It plays a part exactly if the middle extent is empty, the last one is not, and the
middle one is newer than both others: then only nesting to the right keeps its version. -/
theorem combine_assoc_iff (a b c : Extent) :
    (a.combine b).combine c = a.combine (b.combine c) ↔
      ¬(b.isEmpty = true ∧ c.isEmpty = false ∧ max a.version c.version < b.version) := by
  cases hb : b.isEmpty with
  | false => simp [combine_assoc_of_full a hb c]
  | true =>
    cases hc : c.isEmpty with
    | true => simp [combine_of_ignored _ hc]
    | false =>
      have hleft : ((a.combine b).combine c).version = max a.version c.version := by
        rw [combine_of_ignored a hb, version_combine, hc]
        rfl
      have hright : (a.combine (b.combine c)).version = max a.version (max b.version c.version) := by
        rw [combine_combine_of_empty a hb hc]
      have hversion : max a.version c.version = max a.version (max b.version c.version) ↔
          ¬max a.version c.version < b.version := by
        rw [← UInt64.toNat_inj, UInt64.lt_iff_toNat_lt]
        simp only [UInt64.toNat_max]
        omega
      -- The spans are the same anyway, so the two versions decide.
      have hspans := spans_combine_assoc a b c
      constructor
      · intro h
        have hsame := congrArg Extent.version h
        rw [hleft, hright] at hsame
        simpa using hversion.mp hsame
      · intro h
        refine Extent.ext ?_ hspans.1 hspans.2
        rw [hleft, hright]
        exact hversion.mpr (by simpa using h)

/-- An empty extent on the left differs from one on the right only if it is the newer one. -/
theorem combine_comm_iff_of_empty (ha : a.isEmpty = true) (hb : b.isEmpty = false) :
    a.combine b = b.combine a ↔ a.version ≤ b.version := by
  rw [combine_of_adopted hb ha, combine_of_ignored b ha, Offset.max_comm, ← Offset.max_eq_left_iff]
  constructor
  · intro h
    exact congrArg Extent.version h
  · intro h
    rw [h]

/-- **Order.** The conditions under which it plays no part, by what is empty. -/
theorem combine_comm_iff (a b : Extent) :
    a.combine b = b.combine a ↔
      (a.isEmpty = false ∧ b.isEmpty = false) ∨
      (a.isEmpty = true ∧ b.isEmpty = false ∧ a.version ≤ b.version) ∨
      (a.isEmpty = false ∧ b.isEmpty = true ∧ b.version ≤ a.version) ∨
      (a.isEmpty = true ∧ b.isEmpty = true ∧ a.before = b.before ∧ a.after = b.after ∧
        a.version = b.version) := by
  cases ha : a.isEmpty <;> cases hb : b.isEmpty
  · simp [combine_comm_of_full ha hb]
  · simp [eq_comm (a := a.combine b), combine_comm_iff_of_empty hb ha]
  · simp [combine_comm_iff_of_empty ha hb]
  · rw [combine_of_ignored a hb, combine_of_ignored b ha]
    constructor
    · rintro rfl
      simp
    · simp only [Bool.true_eq_false, false_and, and_false, false_or, true_and]
      rintro ⟨hbefore, hafter, hversion⟩
      exact Extent.ext hversion hbefore hafter

end Extent

namespace Change

/-- **Nesting and order of changes.** However three changes are nested, the spans and the texts are
the same, and the version differs only where the middle change is empty, the last one is not, and
the middle one is newer than both others. Two changes may come in either order exactly if they have
the same texts and either none is empty, or the empty one is not the newer one, or both are empty
and agree. -/
theorem combine_algebra (a b c : Change) :
    (((a.combine b).combine c).before = (a.combine (b.combine c)).before ∧
      ((a.combine b).combine c).after = (a.combine (b.combine c)).after ∧
      ((a.combine b).combine c).beforeText = (a.combine (b.combine c)).beforeText ∧
      ((a.combine b).combine c).afterText = (a.combine (b.combine c)).afterText) ∧
    (((a.combine b).combine c == a.combine (b.combine c)) = false ↔
      b.isEmpty = true ∧ c.isEmpty = false ∧ max a.version c.version < b.version) ∧
    ((a.combine b == b.combine a) = true ↔
      (a.beforeText == b.beforeText) = true ∧ (a.afterText == b.afterText) = true ∧
        ((a.isEmpty = false ∧ b.isEmpty = false) ∨
          (a.isEmpty = true ∧ b.isEmpty = false ∧ a.version ≤ b.version) ∨
          (a.isEmpty = false ∧ b.isEmpty = true ∧ b.version ≤ a.version) ∨
          (a.isEmpty = true ∧ b.isEmpty = true ∧ a.before = b.before ∧ a.after = b.after ∧
            a.version = b.version))) := by
  obtain ⟨hbefore, hafter⟩ := Extent.spans_combine_assoc a.toExtent b.toExtent c.toExtent
  refine ⟨⟨hbefore, hafter, rfl, rfl⟩, ?_, ?_⟩
  · have hnest := Extent.combine_assoc_iff a.toExtent b.toExtent c.toExtent
    have hsame : ((a.combine b).combine c == a.combine (b.combine c)) = true ↔
        (a.toExtent.combine b.toExtent).combine c.toExtent =
          a.toExtent.combine (b.toExtent.combine c.toExtent) := by
      rw [beq_iff]
      simp
    rw [← Bool.not_eq_true, hsame, hnest, not_not]
  · rw [beq_iff, ← Extent.combine_comm_iff]
    simp only [toExtent_combine, beforeText_combine, afterText_combine]
    tauto

end Change

end DirtyRegion
