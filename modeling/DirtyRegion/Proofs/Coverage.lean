import Mathlib.Order.Interval.Finset.Nat
import DirtyRegion.Proofs.Enclosure
import DirtyRegion.Span.Sweep

/-!
# Coverage — spans as sets of offsets

A span stands for the offsets in it. `Span.offsets` is this set, and the operations on spans are
formulas on bounds, so each of them has to be compared with what it does to sets.

- `Span.Gap s t o` says that `o` lies between two spans.
- `Span.Meets s t` says that nothing can lie there: the two spans share an offset or touch.

Main statements: `intersects_iff_exists`, `contains_cover_iff` (a cover holds both spans and the gap),
`offsets_cover` and `length_cover_add` (where spans meet, it holds nothing else and the lengths add
up), `isHull_foldl_cover` for covers of many spans, and `operations_by_offsets`.
-/

namespace DirtyRegion

namespace Span

section Defs

/-- The offsets that the span holds. -/
def offsets (s : Span) : Finset ℕ :=
  Finset.Ico s.start.toNat s.stop.toNat

/-- The offset lies behind one of the two spans and before the other. -/
def Gap (s t : Span) (o : Offset) : Prop :=
  s.stop ≤ o ∧ o < t.start ∨ t.stop ≤ o ∧ o < s.start

/-- The two spans share an offset, or one of them begins where the other ends. -/
def Meets (s t : Span) : Prop :=
  s.intersects t = true ∨ s.stop = t.start ∨ t.stop = s.start

instance (s t : Span) (o : Offset) : Decidable (s.Gap t o) :=
  inferInstanceAs (Decidable (_ ∨ _))

instance (s t : Span) : Decidable (s.Meets t) :=
  inferInstanceAs (Decidable (_ ∨ _))

end Defs

variable {r s t : Span} {o : Offset}

/-! ### Offsets of one span -/

theorem mem_offsets : o.toNat ∈ s.offsets ↔ s.contains o = true := by
  rw [offsets, Finset.mem_Ico, contains_iff]

theorem card_offsets (s : Span) : s.offsets.card = s.length.toNat := by
  rw [offsets, Nat.card_Ico, toNat_length]

theorem isEmpty_eq_false_iff : s.isEmpty = false ↔ s.start.toNat < s.stop.toNat := by
  have hle := s.toNat_start_le_stop
  rw [Bool.eq_false_iff, Ne, isEmpty_iff, ← UInt64.toNat_inj]
  omega

/-! ### Two spans -/

/-- The later of the two starts is the offset to look at. -/
theorem intersects_iff_exists :
    s.intersects t = true ↔ ∃ o, s.contains o = true ∧ t.contains o = true := by
  rw [intersects_iff]
  constructor
  · intro h
    have hs : s.contains (max s.start t.start) = true := by
      rw [contains_iff, UInt64.toNat_max]
      omega
    have ht : t.contains (max s.start t.start) = true := by
      rw [contains_iff, UInt64.toNat_max]
      omega
    exact ⟨_, hs, ht⟩
  · rintro ⟨o, hs, ht⟩
    rw [contains_iff] at hs ht
    omega

theorem intersects_comm (s t : Span) : s.intersects t = t.intersects s := by
  rw [Bool.eq_iff_iff, intersects_iff_exists, intersects_iff_exists]
  simp only [and_comm]

theorem intersects_of_isEmpty (h : s.isEmpty = true) (t : Span) : s.intersects t = false := by
  rw [isEmpty_iff, ← UInt64.toNat_inj] at h
  rw [Bool.eq_false_iff, Ne, intersects_iff]
  omega

/-- A cover holds what either span holds and what lies between the two. An empty span has no offset
to hold, but its place counts, so both have to be nonempty here. -/
theorem contains_cover_iff (hs : s.isEmpty = false) (ht : t.isEmpty = false) :
    (s.cover t).contains o = true ↔ s.contains o = true ∨ t.contains o = true ∨ s.Gap t o := by
  rw [isEmpty_eq_false_iff] at hs ht
  simp only [contains_iff, Gap, toNat_cover_start, toNat_cover_stop, UInt64.le_iff_toNat_le,
    UInt64.lt_iff_toNat_lt]
  omega

/-- Where spans meet, neither begins behind the end of the other. -/
theorem Meets.start_le_stop (h : s.Meets t) :
    s.start.toNat ≤ t.stop.toNat ∧ t.start.toNat ≤ s.stop.toNat := by
  have hs := s.toNat_start_le_stop
  have ht := t.toNat_start_le_stop
  rw [Meets, intersects_iff, ← UInt64.toNat_inj, ← UInt64.toNat_inj] at h
  omega

theorem offsets_cover (h : s.Meets t) : (s.cover t).offsets = s.offsets ∪ t.offsets := by
  have hs := s.toNat_start_le_stop
  have ht := t.toNat_start_le_stop
  obtain ⟨hst, hts⟩ := h.start_le_stop
  rw [offsets, offsets, offsets, toNat_cover_start, toNat_cover_stop, Finset.Ico_union_Ico]
  · omega
  · omega

theorem contains_cover_of_meets (h : s.Meets t) :
    (s.cover t).contains o = true ↔ s.contains o = true ∨ t.contains o = true := by
  rw [← mem_offsets, offsets_cover h, Finset.mem_union, mem_offsets, mem_offsets]

/-- Where spans meet, the cover counts once what both hold. -/
theorem length_cover_add (h : s.Meets t) :
    (s.cover t).length.toNat + (s.offsets ∩ t.offsets).card = s.length.toNat + t.length.toNat := by
  rw [← card_offsets, ← card_offsets, ← card_offsets, offsets_cover h,
    Finset.card_union_add_card_inter]

/-- A cover is the least span around both places, whether or not there are offsets in them. -/
theorem encloses_cover_iff : r.Encloses (s.cover t) ↔ r.Encloses s ∧ r.Encloses t := by
  simp only [encloses_iff, toNat_cover_start, toNat_cover_stop]
  omega

/-! ### Many spans -/

/-- Covering spans one after another ends in their hull. -/
theorem isHull_foldl_cover (r : Span) (rs : List Span) : (rs.foldl cover r).IsHull (r :: rs) := by
  induction rs using List.reverseRecOn with
  | nil => exact isHull_singleton r
  | append_singleton rs s ih =>
    rw [List.foldl_append]
    exact ih.cover s

theorem foldl_cover_perm {q : Span} {qs rs : List Span} (h : (q :: qs).Perm (r :: rs)) :
    qs.foldl cover q = rs.foldl cover r :=
  ((isHull_foldl_cover q qs).congr fun _ => h.mem_iff).unique (isHull_foldl_cover r rs)

end Span

namespace Sweep

variable {ε : Type}

/-- The cover that a sweep comes to hangs on the spans alone, not on the errors between them. -/
theorem cover?_run (w : Sweep) (results : List (Except ε Span)) :
    (w.run results).1.cover? =
      (results.filterMap Except.toOption).foldl (fun c r => some (extend c r)) w.cover? := by
  induction results generalizing w with
  | nil => rfl
  | cons x results ih =>
    cases x with
    | error e => exact ih w
    | ok r => exact ih (w.add r).1

theorem foldl_extend (r : Span) (rs : List Span) :
    rs.foldl (fun c r => some (extend c r)) (some r) = some (rs.foldl Span.cover r) := by
  induction rs generalizing r with
  | nil => rfl
  | cons s rs ih => exact ih (r.cover s)

theorem cover?_run_start {results : List (Except ε Span)} {r : Span} {rs : List Span}
    (h : results.filterMap Except.toOption = r :: rs) :
    (start.run results).1.cover? = some (rs.foldl Span.cover r) := by
  rw [cover?_run, h]
  exact foldl_extend r rs

end Sweep

namespace Span

/-- **What spans are as sets.** Two spans intersect exactly if some offset is in both; so an empty one
intersects nothing, and it does not matter which is asked. The cover of two nonempty spans holds what
either holds and what lies in the gap between them. Where two spans meet it holds their offsets only,
and is shorter than both together by as many offsets as they share. The cover of any two spans, empty
ones too, lies inside whatever encloses both. Covering a list of spans, one after another or in a
sweep, gives the span from the least start to the greatest end, in whatever order they come. -/
theorem operations_by_offsets (s t : Span) :
    ((s.intersects t = true ↔ ∃ o, s.contains o = true ∧ t.contains o = true) ∧
      (s.isEmpty = true ∨ t.isEmpty = true → s.intersects t = false) ∧
      s.intersects t = t.intersects s) ∧
    (s.isEmpty = false → t.isEmpty = false → ∀ o, (s.cover t).contains o = true ↔
      s.contains o = true ∨ t.contains o = true ∨ s.Gap t o) ∧
    (s.Meets t →
      (∀ o, (s.cover t).contains o = true ↔ s.contains o = true ∨ t.contains o = true) ∧
      (s.cover t).length.toNat + (s.offsets ∩ t.offsets).card =
        s.length.toNat + t.length.toNat) ∧
    ((s.cover t).Encloses s ∧ (s.cover t).Encloses t ∧
      ∀ r : Span, r.Encloses s → r.Encloses t → r.Encloses (s.cover t)) ∧
    ∀ (r : Span) (rs : List Span),
      (rs.foldl cover r).IsHull (r :: rs) ∧
      (∀ q qs, (q :: qs).Perm (r :: rs) → qs.foldl cover q = rs.foldl cover r) ∧
      ∀ (ε : Type) (results : List (Except ε Span)),
        results.filterMap Except.toOption = r :: rs →
          (Sweep.start.run results).1.cover? = some (rs.foldl cover r) := by
  refine ⟨⟨intersects_iff_exists, ?_, intersects_comm s t⟩, ?_, ?_, ?_, ?_⟩
  · rintro (h | h)
    · exact intersects_of_isEmpty h t
    · rw [intersects_comm]
      exact intersects_of_isEmpty h s
  · intro hs ht o
    exact contains_cover_iff hs ht
  · intro h
    exact ⟨fun o => contains_cover_of_meets h, length_cover_add h⟩
  · exact ⟨encloses_cover_left s t, encloses_cover_right s t,
      fun r hs ht => encloses_cover_iff.mpr ⟨hs, ht⟩⟩
  · intro r rs
    exact ⟨isHull_foldl_cover r rs, fun q qs h => foldl_cover_perm h,
      fun ε results h => Sweep.cover?_run_start h⟩

/-- The span of a length, or the empty one where there is none. -/
def stretch (start length : Offset) : Span :=
  (ofLength start length).toOption.getD empty

/-- Two spans with a gap, an empty one inside of one of them, two that share the offsets 4 and 5 and
the last of which ends at the last offset, and three spans in either order. -/
theorem stretches_by_offsets :
    ((stretch 2 4).isEmpty = false ∧ (stretch 9 3).isEmpty = false ∧
      (stretch 2 4).Gap (stretch 9 3) 7 ∧
        ((stretch 2 4).cover (stretch 9 3)).contains 7 = true) ∧
    ((stretch 5 0).isEmpty = true ∧ (stretch 2 4).intersects (stretch 5 0) = false) ∧
    ((stretch 2 4).Meets (stretch 4 18446744073709551611) ∧
      ((stretch 2 4).offsets ∩ (stretch 4 18446744073709551611).offsets).card = 2) ∧
    ((stretch 0 12).Encloses (stretch 2 4) ∧ (stretch 0 12).Encloses (stretch 5 0) ∧
      (stretch 0 12).Encloses ((stretch 2 4).cover (stretch 5 0))) ∧
    [stretch 5 0, stretch 9 3].foldl cover (stretch 2 4) =
      [stretch 2 4, stretch 5 0].foldl cover (stretch 9 3) := by
  obtain ⟨-, hgap, -⟩ := operations_by_offsets (stretch 2 4) (stretch 9 3)
  obtain ⟨⟨-, hempty, -⟩, -, -, ⟨-, -, hleast⟩, -⟩ :=
    operations_by_offsets (stretch 2 4) (stretch 5 0)
  obtain ⟨-, -, hmeets, -, hfold⟩ :=
    operations_by_offsets (stretch 2 4) (stretch 4 18446744073709551611)
  have hbehind : (stretch 2 4).Gap (stretch 9 3) 7 := by decide
  have hshared : (stretch 2 4).Meets (stretch 4 18446744073709551611) := by decide
  have hcover : ((stretch 2 4).cover (stretch 4 18446744073709551611)).length.toNat =
      18446744073709551613 := by decide
  have hfirst : (stretch 2 4).length.toNat = 4 := by decide
  have hsecond : (stretch 4 18446744073709551611).length.toNat = 18446744073709551611 := by decide
  obtain ⟨-, hlength⟩ := hmeets hshared
  refine ⟨⟨by decide, by decide, hbehind, ?_⟩, ⟨by decide, hempty (.inr (by decide))⟩,
    ⟨hshared, by omega⟩, ⟨by decide, by decide, hleast _ (by decide) (by decide)⟩, ?_⟩
  · exact (hgap (by decide) (by decide) 7).mpr (.inr (.inr hbehind))
  · exact (hfold (stretch 9 3) [stretch 2 4, stretch 5 0]).2.1 _ _ (by decide)

end Span

end DirtyRegion
