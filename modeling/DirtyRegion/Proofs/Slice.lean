import Mathlib.Data.Int.Notation
import Mathlib.Data.Nat.Notation
import Mathlib.Tactic.SplitIfs
import DirtyRegion.Change.Basic

/-!
# Slices — a change read against the two texts it speaks of

Both spans of a change are looked up in its snapshots. `SameRest i j cs ds` says that two texts go
on alike after their first `i` and `j` characters. `Change.Frames c cs ds` says that `cs` and `ds`
agree on both sides of the spans, and that slices and distance are there. `Change.Explains c cs ds`
says that the change is all that lies between the texts: the later slice put in the place of the
earlier span gives `ds`, and the distance is the difference of the two lengths.

Main statements: `frames_of_sameRest`, and `explains_iff`, by which a change whose spans begin at
the same place, with the same text before it, explains two texts exactly if they go on alike after
its spans.
-/

namespace DirtyRegion

/-- Two texts go on alike after their first `i` and `j` characters. -/
def SameRest {α : Type} (i j : ℕ) (cs ds : List α) : Prop :=
  i ≤ cs.length ∧ j ≤ ds.length ∧ cs.drop i = ds.drop j

instance {α : Type} [DecidableEq α] (i j : ℕ) (cs ds : List α) : Decidable (SameRest i j cs ds) :=
  inferInstanceAs (Decidable (_ ∧ _ ∧ _))

/-- The characters of a snapshot in order. -/
def Snapshot.toList (s : Snapshot) : List Char :=
  LawfulTextSource.toList s

/-- A snapshot can have any text. -/
theorem Snapshot.toList_plain (n : ℕ) (cs : List Char) :
    Snapshot.toList ⟨n, .plain (String.ofList cs)⟩ = cs :=
  String.toList_ofList

theorem Snapshot.text?_eq_some_iff {s : Snapshot} {r : Span} {x : String} :
    TextSource.text? s r = some x ↔ r.stop.toNat ≤ s.toList.length ∧
      x.toList = (s.toList.take r.stop.toNat).drop r.start.toNat := by
  rw [LawfulTextSource.text?_eq, Span.select?, ← Snapshot.toList]
  split_ifs with hle
  · simp [hle, ← String.toList_inj, eq_comm]
  · simp [hle]

theorem Snapshot.text?_of_le {s : Snapshot} {r : Span} (h : r.stop.toNat ≤ s.toList.length) :
    ∃ x, TextSource.text? s r = some x ∧
      x.toList = (s.toList.take r.stop.toNat).drop r.start.toNat :=
  ⟨String.ofList _, text?_eq_some_iff.mpr ⟨h, String.toList_ofList⟩, String.toList_ofList⟩

namespace Extent

/-- A distance between two lengths below `2 ^ 63` always fits. -/
theorem shift?_of_lt {e : Extent} (hb : e.before.length.toNat < distanceCount)
    (ha : e.after.length.toNat < distanceCount) :
    e.shift? = some ((e.after.length.toNat : ℤ) - e.before.length.toNat) := by
  have hold : Offset.signed? e.before.length.toNat = some (e.before.length.toNat : ℤ) :=
    Offset.signed?_natCast_iff.mpr ⟨rfl, hb⟩
  have hnew : Offset.signed? e.after.length.toNat = some (e.after.length.toNat : ℤ) :=
    Offset.signed?_natCast_iff.mpr ⟨rfl, ha⟩
  rw [shift?, hold, hnew]
  exact Offset.signed?_sub_of_lt hb ha

end Extent

namespace Change

/-- Two texts agree on both sides of the change, and what it tells can be read. -/
structure Frames (c : Change) (cs ds : List Char) : Prop where
  before_slice : ∃ x, c.beforeSlice? = some x ∧
    x.toList = (cs.take c.before.stop.toNat).drop c.before.start.toNat
  after_slice : ∃ y, c.afterSlice? = some y ∧
    y.toList = (ds.take c.after.stop.toNat).drop c.after.start.toNat
  same_start : cs.take c.before.start.toNat = ds.take c.after.start.toNat
  same_rest : SameRest c.before.stop.toNat c.after.stop.toNat cs ds
  shift : c.before.length.toNat < distanceCount → c.after.length.toNat < distanceCount →
    c.shift? = some ((ds.length : ℤ) - cs.length)

/-- The change is all that lies between two texts. -/
structure Explains (c : Change) (cs ds : List Char) : Prop where
  before_slice : ∃ x, c.beforeSlice? = some x
  after_slice : ∃ y, c.afterSlice? = some y ∧
    cs.take c.before.start.toNat ++ y.toList ++ cs.drop c.before.stop.toNat = ds
  shift : c.shift? = some ((ds.length : ℤ) - cs.length)

variable {c : Change} {s t : Snapshot} {cs ds : List Char}

theorem beforeSlice?_eq (h : c.beforeText = some s) :
    c.beforeSlice? = TextSource.text? s c.before := by
  rw [beforeSlice?, h]
  rfl

theorem afterSlice?_eq (h : c.afterText = some t) :
    c.afterSlice? = TextSource.text? t c.after := by
  rw [afterSlice?, h]
  rfl

/-- A text is what stands before a span, in it and after it. -/
theorem take_append_span {α : Type} (r : Span) (ds : List α) :
    ds.take r.start.toNat ++ (ds.take r.stop.toNat).drop r.start.toNat ++ ds.drop r.stop.toNat =
      ds := by
  have hle := r.toNat_start_le_stop
  have hpre : ds.take r.start.toNat = (ds.take r.stop.toNat).take r.start.toNat := by
    rw [List.take_take, Nat.min_eq_left hle]
  rw [hpre, List.take_append_drop, List.take_append_drop]

/-- Where spans begin at the same place and texts go on alike after them, the distance is the
difference of the two lengths. -/
theorem shift?_of_sameRest (hstart : c.before.start = c.after.start)
    (h : SameRest c.before.stop.toNat c.after.stop.toNat cs ds)
    (hb : c.before.length.toNat < distanceCount) (ha : c.after.length.toNat < distanceCount) :
    c.shift? = some ((ds.length : ℤ) - cs.length) := by
  obtain ⟨hcs, hds, hdrop⟩ := h
  have hlen := congrArg List.length hdrop
  rw [List.length_drop, List.length_drop] at hlen
  have hble := c.before.toNat_start_le_stop
  have hale := c.after.toNat_start_le_stop
  rw [Extent.shift?_of_lt hb ha, c.before.toNat_length, c.after.toNat_length]
  rw [← hstart] at hale ⊢
  congr 1
  omega

theorem frames_of_sameRest (hb : c.beforeText = some s) (ha : c.afterText = some t)
    (hs : s.toList = cs) (ht : t.toList = ds) (hstart : c.before.start = c.after.start)
    (htake : cs.take c.before.start.toNat = ds.take c.after.start.toNat)
    (hrest : SameRest c.before.stop.toNat c.after.stop.toNat cs ds) : c.Frames cs ds := by
  subst hs ht
  obtain ⟨x, hx, hxtext⟩ := Snapshot.text?_of_le hrest.1
  obtain ⟨y, hy, hytext⟩ := Snapshot.text?_of_le hrest.2.1
  exact {
    before_slice := ⟨x, (beforeSlice?_eq hb).trans hx, hxtext⟩
    after_slice := ⟨y, (afterSlice?_eq ha).trans hy, hytext⟩
    same_start := htake
    same_rest := hrest
    shift := shift?_of_sameRest hstart hrest }

theorem Frames.explains (h : c.Frames cs ds) (hcs : cs.length < distanceCount)
    (hds : ds.length < distanceCount) : c.Explains cs ds := by
  obtain ⟨x, hx, -⟩ := h.before_slice
  obtain ⟨y, hy, hytext⟩ := h.after_slice
  obtain ⟨hbstop, hastop, hdrop⟩ := h.same_rest
  refine ⟨⟨x, hx⟩, ⟨y, hy, ?_⟩, ?_⟩
  · rw [hytext, h.same_start, hdrop]
    exact take_append_span c.after ds
  · have hbl := c.before.toNat_length
    have hal := c.after.toNat_length
    exact h.shift (by omega) (by omega)

/-- **Exactly when a change explains two texts**: the text after its spans has to agree. -/
theorem explains_iff (hb : c.beforeText = some s) (ha : c.afterText = some t)
    (hs : s.toList = cs) (ht : t.toList = ds) (hstart : c.before.start = c.after.start)
    (htake : cs.take c.before.start.toNat = ds.take c.after.start.toNat)
    (hcs : cs.length < distanceCount) (hds : ds.length < distanceCount) :
    c.Explains cs ds ↔ SameRest c.before.stop.toNat c.after.stop.toNat cs ds := by
  constructor
  · rintro ⟨⟨x, hx⟩, ⟨y, hy, hsplice⟩, -⟩
    subst hs ht
    rw [beforeSlice?_eq hb] at hx
    rw [afterSlice?_eq ha] at hy
    obtain ⟨hx, -⟩ := Snapshot.text?_eq_some_iff.mp hx
    obtain ⟨hy, hytext⟩ := Snapshot.text?_eq_some_iff.mp hy
    refine ⟨hx, hy, ?_⟩
    -- Cut at its span, the later text has the same front either way, and so the same rest.
    have hwhole := take_append_span c.after t.toList
    rw [hytext, htake] at hsplice
    exact List.append_cancel_left (hsplice.trans hwhole.symm)
  · intro hrest
    exact (frames_of_sameRest hb ha hs ht hstart htake hrest).explains hcs hds

end Change

end DirtyRegion
