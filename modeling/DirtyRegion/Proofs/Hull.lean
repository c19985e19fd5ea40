import Mathlib.Data.List.Induction
import Mathlib.Order.Bounds.Basic
import DirtyRegion.Extent
import DirtyRegion.Span.Cover

/-!
# Hulls — the least interval around many spans

`Span.IsHull s l` says that `s` runs from the least start to the greatest end of the spans in `l`.
The order of the spans in `l` and their number of occurrences play no part. Covering one span more
extends a hull, so a hull is what a fold of `Span.cover` ends in.

`Extent.Gathers base l e` is the invariant of gathering: `e` has the spans of an extent that began
as `base` and gathered `l`, a list without empty extents.

Main statements: `Span.IsHull.cover`, `Span.IsHull.unique`, and `Extent.Gathers.combine`, by which
one more step of `Extent.combine` keeps the invariant, `Extent.gathers_foldl` for whole folds.
-/

namespace DirtyRegion

theorem setOf_mem_concat {α : Type} (l : List α) (a : α) :
    {x | x ∈ l ++ [a]} = insert a {x | x ∈ l} := by
  ext x
  simp [or_comm]

namespace Span

/-- `s` runs from the least start to the greatest end of the spans in `l`. -/
structure IsHull (s : Span) (l : List Span) : Prop where
  start_least : IsLeast ((fun t : Span => t.start.toNat) '' {t | t ∈ l}) s.start.toNat
  stop_greatest : IsGreatest ((fun t : Span => t.stop.toNat) '' {t | t ∈ l}) s.stop.toNat

variable {s t : Span} {l l' : List Span}

theorem isHull_singleton (s : Span) : IsHull s [s] := by
  constructor <;> simp

theorem IsHull.congr (h : IsHull s l) (hl : ∀ t, t ∈ l ↔ t ∈ l') : IsHull s l' := by
  have hset : {t | t ∈ l} = {t | t ∈ l'} := Set.ext hl
  exact ⟨hset ▸ h.start_least, hset ▸ h.stop_greatest⟩

theorem IsHull.start_le (h : IsHull s l) (ht : t ∈ l) : s.start.toNat ≤ t.start.toNat :=
  h.start_least.2 ⟨t, ht, rfl⟩

theorem IsHull.le_stop (h : IsHull s l) (ht : t ∈ l) : t.stop.toNat ≤ s.stop.toNat :=
  h.stop_greatest.2 ⟨t, ht, rfl⟩

theorem IsHull.start_eq (h : IsHull s l) (ht : t ∈ l)
    (hle : ∀ r ∈ l, t.start.toNat ≤ r.start.toNat) : s.start.toNat = t.start.toNat := by
  obtain ⟨r, hr, hrs⟩ := h.start_least.1
  exact Nat.le_antisymm (h.start_le ht) (hrs ▸ hle r hr)

theorem IsHull.stop_eq (h : IsHull s l) (ht : t ∈ l)
    (hle : ∀ r ∈ l, r.stop.toNat ≤ t.stop.toNat) : s.stop.toNat = t.stop.toNat := by
  obtain ⟨r, hr, hrs⟩ := h.stop_greatest.1
  exact Nat.le_antisymm (hrs ▸ hle r hr) (h.le_stop ht)

/-- A list has at most one hull. -/
theorem IsHull.unique (h : IsHull s l) (h' : IsHull t l) : s = t :=
  ext_toNat (h.start_least.unique h'.start_least) (h.stop_greatest.unique h'.stop_greatest)

/-- Covering one span more extends a hull by it. -/
theorem IsHull.cover (h : IsHull s l) (t : Span) : IsHull (s.cover t) (l ++ [t]) := by
  constructor
  · rw [setOf_mem_concat, Set.image_insert_eq, toNat_cover_start, Nat.min_comm]
    exact h.start_least.insert _
  · rw [setOf_mem_concat, Set.image_insert_eq, toNat_cover_stop, Nat.max_comm]
    exact h.stop_greatest.insert _

end Span

namespace Extent

/-- The extents of a list that are not empty. -/
def dirty (l : List Extent) : List Extent :=
  l.filter fun e => !e.isEmpty

/-- The extents whose spans are covered when `l` is gathered into `base`: an empty `base` gives its
place up. -/
def sources (base : Extent) (l : List Extent) : List Extent :=
  if base.isEmpty then l else base :: l

/-- `e` has the spans of an extent that was `base` and gathered `l`. -/
structure Gathers (base : Extent) (l : List Extent) (e : Extent) : Prop where
  of_nil : l = [] → e.before = base.before ∧ e.after = base.after
  before_hull : l ≠ [] → e.before.IsHull ((base.sources l).map (·.before))
  after_hull : l ≠ [] → e.after.IsHull ((base.sources l).map (·.after))

variable {base e other : Extent} {l : List Extent}

@[simp] theorem dirty_nil : dirty [] = [] := rfl

theorem mem_dirty : e ∈ dirty l ↔ e ∈ l ∧ e.isEmpty = false := by
  simp [dirty]

theorem dirty_append (l l' : List Extent) : dirty (l ++ l') = dirty l ++ dirty l' :=
  List.filter_append ..

theorem dirty_singleton_of_isEmpty (h : e.isEmpty = true) : dirty [e] = [] := by
  simp [dirty, h]

theorem dirty_singleton (h : e.isEmpty = false) : dirty [e] = [e] := by
  simp [dirty, h]

theorem isEmpty_congr {d : Extent} (hb : e.before = d.before) (ha : e.after = d.after) :
    e.isEmpty = d.isEmpty := by
  rw [isEmpty, isEmpty, hb, ha]

/-- Whatever its version, an extent of two empty spans is empty. -/
theorem isEmpty_reset (v : Version) : isEmpty ⟨v, .empty, .empty⟩ = true :=
  (isEmpty_congr rfl rfl).trans isEmpty_blank

theorem version_combine (e other : Extent) :
    (e.combine other).version =
      if other.isEmpty then e.version else max e.version other.version := by
  cases ho : other.isEmpty with
  | true => rw [combine_of_ignored e ho, if_pos rfl]
  | false =>
    cases he : e.isEmpty with
    | true => rw [combine_of_adopted ho he]; rfl
    | false => rw [combine_of_covered ho he]; rfl

/-- An extent that encloses a nonempty one on both sides is not empty. -/
theorem isEmpty_of_enclosed (hb : e.before.start.toNat ≤ other.before.start.toNat ∧
      other.before.stop.toNat ≤ e.before.stop.toNat)
    (ha : e.after.start.toNat ≤ other.after.start.toNat ∧
      other.after.stop.toNat ≤ e.after.stop.toNat) (h : other.isEmpty = false) :
    e.isEmpty = false := by
  rw [Bool.eq_false_iff] at h ⊢
  rintro he
  -- If the outer bounds are equal on both sides, no room is left inside.
  apply h
  rw [isEmpty_iff, ← UInt64.toNat_inj, ← UInt64.toNat_inj] at he ⊢
  have := other.before.toNat_start_le_stop
  have := other.after.toNat_start_le_stop
  omega

theorem sources_of_isEmpty (h : base.isEmpty = true) : base.sources l = l :=
  if_pos h

theorem sources_append (base : Extent) (l l' : List Extent) :
    base.sources (l ++ l') = base.sources l ++ l' := by
  unfold sources
  split_ifs <;> rfl

theorem mem_sources (h : e ∈ l) : e ∈ base.sources l := by
  unfold sources
  split_ifs
  · exact h
  · exact List.mem_cons_of_mem _ h

theorem Gathers.nil (base : Extent) : Gathers base [] base :=
  ⟨fun _ => ⟨rfl, rfl⟩, fun h => absurd rfl h, fun h => absurd rfl h⟩

theorem Gathers.isEmpty_of_nil (h : Gathers base [] e) : e.isEmpty = base.isEmpty :=
  isEmpty_congr (h.of_nil rfl).1 (h.of_nil rfl).2

theorem Gathers.isEmpty_of_mem (h : Gathers base l e) (ho : other ∈ l)
    (hne : other.isEmpty = false) : e.isEmpty = false := by
  have hl := List.ne_nil_of_mem ho
  have hb : other.before ∈ (base.sources l).map (·.before) := List.mem_map_of_mem (mem_sources ho)
  have ha : other.after ∈ (base.sources l).map (·.after) := List.mem_map_of_mem (mem_sources ho)
  exact isEmpty_of_enclosed ⟨(h.before_hull hl).start_le hb, (h.before_hull hl).le_stop hb⟩
    ⟨(h.after_hull hl).start_le ha, (h.after_hull hl).le_stop ha⟩ hne

/-- One extent in `l` is enough to fill `e`. -/
theorem Gathers.eq_nil_of_isEmpty (h : Gathers base l e) (hl : ∀ x ∈ l, x.isEmpty = false)
    (he : e.isEmpty = true) : l = [] := by
  rw [List.eq_nil_iff_forall_not_mem]
  intro x hx
  have hfull := h.isEmpty_of_mem hx (hl x hx)
  rw [he] at hfull
  cases hfull

/-- Once it is not empty, an extent covers all its sources. -/
theorem Gathers.hulls (h : Gathers base l e) (he : e.isEmpty = false) :
    e.before.IsHull ((base.sources l).map (·.before)) ∧
      e.after.IsHull ((base.sources l).map (·.after)) := by
  by_cases hl : l = []
  · subst hl
    obtain ⟨hb, ha⟩ := h.of_nil rfl
    have hs : base.sources [] = [base] := by
      simp [sources, ← h.isEmpty_of_nil, he]
    rw [hs, hb, ha]
    exact ⟨Span.isHull_singleton _, Span.isHull_singleton _⟩
  · exact ⟨h.before_hull hl, h.after_hull hl⟩

/-- **One step.** Gathering one extent more keeps the invariant. -/
theorem Gathers.combine (h : Gathers base l e) (hl : ∀ x ∈ l, x.isEmpty = false)
    (other : Extent) : Gathers base (l ++ dirty [other]) (e.combine other) := by
  cases ho : other.isEmpty with
  | true =>
    rw [combine_of_ignored e ho, dirty_singleton_of_isEmpty ho, List.append_nil]
    exact h
  | false =>
    rw [dirty_singleton ho]
    have hne : l ++ [other] ≠ [] := by simp
    cases he : e.isEmpty with
    | true =>
      -- An extent that is still empty has gathered nothing, and its base is no source.
      obtain rfl := h.eq_nil_of_isEmpty hl he
      have hbase : base.isEmpty = true := h.isEmpty_of_nil.symm.trans he
      rw [combine_of_adopted ho he, List.nil_append]
      refine ⟨fun h => absurd h (by simp), ?_, ?_⟩
      · intro _
        rw [sources_of_isEmpty hbase]
        exact Span.isHull_singleton _
      · intro _
        rw [sources_of_isEmpty hbase]
        exact Span.isHull_singleton _
    | false =>
      obtain ⟨hb, ha⟩ := h.hulls he
      rw [combine_of_covered ho he]
      refine ⟨fun h => absurd h hne, ?_, ?_⟩
      · intro _
        rw [sources_append, List.map_append]
        exact hb.cover other.before
      · intro _
        rw [sources_append, List.map_append]
        exact ha.cover other.after

/-- **A whole fold.** Gathering a list keeps the invariant, with the empty extents left out. -/
theorem gathers_foldl (base : Extent) (l : List Extent) :
    Gathers base (dirty l) (l.foldl combine base) := by
  induction l using List.reverseRecOn with
  | nil => exact Gathers.nil base
  | append_singleton l x ih =>
    rw [List.foldl_append, dirty_append]
    exact ih.combine (fun y hy => (mem_dirty.mp hy).2) x

end Extent

end DirtyRegion
