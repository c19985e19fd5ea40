import Mathlib.Data.List.Perm.Basic
import DirtyRegion.Proofs.Algebra
import DirtyRegion.Proofs.Report

/-!
# Batches — gathering in groups

What an extent gathers from a list is decided by which extents occur in the list, empty ones left
out: order and repetition play no part (`foldl_combine_congr`). A list gathered on its own into a
blank extent, and then as one, comes to the same as its members one by one (`combine_foldl_blank`).
So producers may gather in groups of their own before they hand on: `Change.Regroups` is what such
groups keep of a list.

Main statement: `Change.batches_eq`, groups gathered first and then as one are the list gathered in
its own order.
-/

namespace DirtyRegion

namespace Extent

variable {e x : Extent} {l l' : List Extent}

/-! ### Order and repetition -/

/-- Of two extents that come one after the other, either may come first. -/
theorem combine_right_comm (e a b : Extent) :
    (e.combine a).combine b = (e.combine b).combine a := by
  cases ha : a.isEmpty with
  | true => rw [combine_of_ignored _ ha, combine_of_ignored _ ha]
  | false =>
    cases hb : b.isEmpty with
    | true => rw [combine_of_ignored _ hb, combine_of_ignored _ hb]
    | false =>
      rw [combine_assoc_of_full e ha b, combine_comm_of_full ha hb,
        ← combine_assoc_of_full e hb a]

instance : RightCommutative combine := ⟨combine_right_comm⟩

theorem foldl_combine_perm (h : l.Perm l') (e : Extent) :
    l.foldl combine e = l'.foldl combine e :=
  h.foldl_eq e

theorem combine_combine_self (e x : Extent) : (e.combine x).combine x = e.combine x := by
  cases hx : x.isEmpty with
  | true => rw [combine_of_ignored _ hx]
  | false => rw [combine_assoc_of_full e hx x, combine_self]

/-- What was gathered once need not come again. -/
theorem foldl_combine_absorb (hx : x ∈ l) : (l.foldl combine e).combine x = l.foldl combine e := by
  have hfront : l.Perm (x :: l.erase x) := List.perm_cons_erase hx
  have htwice : (l ++ [x]).Perm (x :: x :: l.erase x) :=
    (List.perm_append_singleton x l).trans (hfront.cons x)
  calc (l.foldl combine e).combine x
      = (l ++ [x]).foldl combine e := by rw [List.foldl_append]; rfl
    _ = (x :: x :: l.erase x).foldl combine e := foldl_combine_perm htwice e
    _ = (x :: l.erase x).foldl combine e := by simp only [List.foldl_cons, combine_combine_self]
    _ = l.foldl combine e := (foldl_combine_perm hfront e).symm

theorem foldl_combine_append_of_mem (h : ∀ x ∈ l', x.isEmpty = false → x ∈ l) :
    (l ++ l').foldl combine e = l.foldl combine e := by
  -- The last one of `l'` was gathered with `l` already, or it is empty.
  induction l' using List.reverseRecOn with
  | nil => rw [List.append_nil]
  | append_singleton l' x ih =>
    rw [← List.append_assoc, List.foldl_append]
    have hold : (l ++ l').foldl combine e = l.foldl combine e :=
      ih fun y hy => h y (List.mem_append_left _ hy)
    rw [hold, List.foldl_cons, List.foldl_nil]
    cases hempty : x.isEmpty with
    | true => exact combine_of_ignored _ hempty
    | false => exact foldl_combine_absorb (h x (by simp) hempty)

/-- **Order and repetition.** Lists with the same extents, empty ones left out, gather alike. -/
theorem foldl_combine_congr (h : ∀ x, x.isEmpty = false → (x ∈ l ↔ x ∈ l')) (e : Extent) :
    l.foldl combine e = l'.foldl combine e :=
  calc l.foldl combine e
      = (l ++ l').foldl combine e :=
        (foldl_combine_append_of_mem fun x hx hfull => (h x hfull).mpr hx).symm
    _ = (l' ++ l).foldl combine e := foldl_combine_perm List.perm_append_comm e
    _ = l'.foldl combine e := foldl_combine_append_of_mem fun x hx hfull => (h x hfull).mp hx

/-! ### Groups -/

/-- What a blank extent gathers is empty only as long as it is blank: an empty extent never leaves
its version there. -/
theorem foldl_combine_blank_of_isEmpty (h : (l.foldl combine blank).isEmpty = true) :
    l.foldl combine blank = blank := by
  induction l using List.reverseRecOn with
  | nil => rfl
  | append_singleton l x ih =>
    rw [List.foldl_append, List.foldl_cons, List.foldl_nil] at h ⊢
    rw [isEmpty_combine, Bool.and_eq_true] at h
    obtain ⟨hl, hx⟩ := h
    rw [combine_of_ignored _ hx]
    exact ih hl

/-- **One group.** A list gathered on its own, and then as one, comes to the same as its members one
by one. -/
theorem combine_foldl_blank (e : Extent) (l : List Extent) :
    e.combine (l.foldl combine blank) = l.foldl combine e := by
  induction l using List.reverseRecOn with
  | nil => exact combine_of_ignored e isEmpty_blank
  | append_singleton l x ih =>
    simp only [List.foldl_append, List.foldl_cons, List.foldl_nil]
    rw [← ih]
    refine ((combine_assoc_iff e _ x).mpr ?_).symm
    -- Nesting shows only a version of the group that is there although the group is empty.
    rintro ⟨hempty, -, hnewer⟩
    rw [foldl_combine_blank_of_isEmpty hempty, UInt64.lt_iff_toNat_lt] at hnewer
    exact Nat.not_lt_zero _ hnewer

theorem foldl_combine_groups (e : Extent) (groups : List (List Extent)) :
    (groups.map fun g => g.foldl combine blank).foldl combine e =
      groups.flatten.foldl combine e := by
  simp only [List.foldl_map, combine_foldl_blank, List.foldl_flatten]

end Extent

namespace Change

/-- What one change gathers from two lists can differ in the extent alone. -/
theorem foldl_combine_ext {c : Change} {ds ds' : List Change}
    (h : (ds.foldl combine c).toExtent = (ds'.foldl combine c).toExtent) :
    ds.foldl combine c = ds'.foldl combine c := by
  rw [toExtent_foldl_combine, toExtent_foldl_combine] at h
  rw [foldl_combine_eq, foldl_combine_eq, h]

/-- Gathering changes in another order comes to the same. -/
theorem foldl_combine_perm {ds ds' : List Change} (h : ds.Perm ds') (c : Change) :
    ds.foldl combine c = ds'.foldl combine c := by
  apply foldl_combine_ext
  rw [toExtent_foldl_combine, toExtent_foldl_combine]
  exact Extent.foldl_combine_perm (h.map _) _

/-- The groups hold the changes of the list and nothing else, in any order and number. Empty changes
may be missing. -/
structure Regroups (cs : List Change) (groups : List (List Change)) : Prop where
  drawn : ∀ g ∈ groups, ∀ d ∈ g, ∃ c ∈ cs, (d == c) = true
  kept : ∀ c ∈ cs, c.isEmpty = false → ∃ g ∈ groups, ∃ d ∈ g, (d == c) = true

variable {cs : List Change} {groups : List (List Change)}

theorem Regroups.mem_iff (h : Regroups cs groups) {x : Extent} (hx : x.isEmpty = false) :
    x ∈ groups.flatten.map (·.toExtent) ↔ x ∈ cs.map (·.toExtent) := by
  constructor
  · intro hmem
    obtain ⟨d, hd, rfl⟩ := List.mem_map.mp hmem
    obtain ⟨g, hg, hdg⟩ := List.mem_flatten.mp hd
    obtain ⟨c, hc, hdc⟩ := h.drawn g hg d hdg
    exact List.mem_map.mpr ⟨c, hc, (beq_iff.mp hdc).1.symm⟩
  · intro hmem
    obtain ⟨c, hc, rfl⟩ := List.mem_map.mp hmem
    obtain ⟨g, hg, d, hdg, hdc⟩ := h.kept c hc hx
    exact List.mem_map.mpr ⟨d, List.mem_flatten.mpr ⟨g, hg, hdg⟩, (beq_iff.mp hdc).1⟩

/-- **Batches.** A list of changes is put into groups, with the order changed and members or whole
groups repeated at will. Each group is gathered on its own and the groups are gathered as one: the
result is that of the list in its own order. -/
theorem batches_eq (h : Regroups cs groups) (acc : Change) :
    (groups.map fun g => g.foldl combine blank).foldl combine acc = cs.foldl combine acc := by
  have hgroups : (groups.map fun g => g.foldl combine blank).map (·.toExtent) =
      (groups.map fun g => g.map (·.toExtent)).map fun g => g.foldl Extent.combine .blank := by
    simp only [List.map_map]
    refine List.map_congr_left fun g _ => ?_
    exact toExtent_foldl_combine blank g
  have hmem : ∀ x, x.isEmpty = false →
      (x ∈ (groups.map fun g => g.map (·.toExtent)).flatten ↔ x ∈ cs.map (·.toExtent)) := by
    intro x hx
    rw [← List.map_flatten]
    exact h.mem_iff hx
  apply foldl_combine_ext
  rw [toExtent_foldl_combine, toExtent_foldl_combine, hgroups, Extent.foldl_combine_groups,
    Extent.foldl_combine_congr hmem]

/-- The change of an edit, at a version, or a blank one where the edit has no spans. -/
def ofEditAt (v : Version) (start old new : Offset) : Change :=
  ((ofEdit start old new).toOption.getD blank).withVersion v

/-- An insertion, a deletion far behind it, an empty change newer than both, and the insertion
again. -/
def keystrokes : List Change :=
  [ofEditAt 1 4 0 2, ofEditAt 2 20 3 0, ofEditAt 9 7 0 0, ofEditAt 1 4 0 2]

/-- The changes of `keystrokes` in groups: the empty one in front, the deletion twice, a group
without changes, and all from the end to the start. -/
def keystrokeGroups : List (List Change) :=
  [keystrokes.drop 2, (keystrokes.drop 1).take 1, [], keystrokes.reverse]

theorem keystrokes_batches_eq :
    Regroups keystrokes keystrokeGroups ∧
      (keystrokeGroups.map fun g => g.foldl combine blank).foldl combine (ofEditAt 1 2 1 0) =
        keystrokes.foldl combine (ofEditAt 1 2 1 0) ∧
      (keystrokes.foldl combine (ofEditAt 1 2 1 0)).toExtent =
        (ofEditAt 2 2 21 18).toExtent := by
  have hgroups : Regroups keystrokes keystrokeGroups := ⟨by decide, by decide⟩
  exact ⟨hgroups, batches_eq hgroups (ofEditAt 1 2 1 0), by decide⟩

end Change

end DirtyRegion
