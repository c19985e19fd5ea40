import Mathlib.Data.UInt
import DirtyRegion.Span.Lemmas

/-!
# Covers — operations on two spans through natural numbers

A cover has the lesser of two starts and the greater of two ends, and two spans meet when the greater
start lies before the lesser end. Both are told in terms of the bounds as natural numbers, so all that
is known of least and greatest numbers holds of them.

Main statements: `Offset.max_eq_left_iff` for versions, `Span.intersects_iff`,
`Span.toNat_cover_start` and `Span.toNat_cover_stop`, and from these `Span.cover_comm`,
`Span.cover_assoc` and `Span.cover_self`.
-/

namespace DirtyRegion

namespace Offset

theorem max_comm (a b : Offset) : max a b = max b a := by
  rw [← UInt64.toNat_inj, UInt64.toNat_max, UInt64.toNat_max, Nat.max_comm]

theorem max_assoc (a b c : Offset) : max (max a b) c = max a (max b c) := by
  simp only [← UInt64.toNat_inj, UInt64.toNat_max, Nat.max_assoc]

theorem max_eq_left_iff {a b : Offset} : max a b = a ↔ b ≤ a := by
  rw [← UInt64.toNat_inj, UInt64.toNat_max, UInt64.le_iff_toNat_le]
  omega

end Offset

namespace Span

theorem intersects_iff {s t : Span} :
    s.intersects t = true ↔
      max s.start.toNat t.start.toNat < min s.stop.toNat t.stop.toNat := by
  rw [intersects, decide_eq_true_iff, UInt64.lt_iff_toNat_lt, UInt64.toNat_max, UInt64.toNat_min]

@[simp] theorem toNat_cover_start (s t : Span) :
    (s.cover t).start.toNat = min s.start.toNat t.start.toNat :=
  UInt64.toNat_min _ _

@[simp] theorem toNat_cover_stop (s t : Span) :
    (s.cover t).stop.toNat = max s.stop.toNat t.stop.toNat :=
  UInt64.toNat_max _ _

theorem cover_comm (s t : Span) : s.cover t = t.cover s := by
  apply ext_toNat <;> simp [Nat.min_comm, Nat.max_comm]

theorem cover_assoc (r s t : Span) : (r.cover s).cover t = r.cover (s.cover t) := by
  apply ext_toNat <;> simp [Nat.min_assoc, Nat.max_assoc]

@[simp] theorem cover_self (s : Span) : s.cover s = s := by
  apply ext_toNat <;> simp

end Span

end DirtyRegion
