import Mathlib.Data.List.Forall2
import DirtyRegion.Change.Basic
import DirtyRegion.Proofs.Edit
import DirtyRegion.Proofs.Hull

/-!
# Reports — the changes that edits are gathered as

A producer reports each edit as a change, and the reports are gathered in the order of the edits:
`Change.gatherEdits`. `Edit.Names e x` says that the spans of the extent `x` are those of `e`.

Main statements: `gatherEdits_of_valid` (valid edits are all reported), `encloses_gathered` (the
gathered spans run from the least start to the greatest ends) and `isEmpty_gathered_iff` (what is
gathered is empty exactly if all edits are idle).
-/

namespace DirtyRegion

namespace Edit

variable {α : Type}

/-- The change that a producer reports for the edit. -/
def change (e : Edit α) : Except SpanError Change :=
  (Change.ofEdit e.start e.old e.inserted).map (·.withVersion e.version)

/-- The spans of `x` are those of the edit. -/
structure Names (e : Edit α) (x : Extent) : Prop where
  before_start : x.before.start = e.start
  before_stop : x.before.stop.toNat = e.start.toNat + e.old.toNat
  after_start : x.after.start = e.start
  after_stop : x.after.stop.toNat = e.start.toNat + e.text.length

/-- An edit between texts whose lengths are offsets is reported. -/
theorem change_of_fits {e : Edit α} {cs : List α} (h : e.Fits cs) (hcs : cs.length < offsetCount)
    (hds : (e.splice cs).length < offsetCount) : ∃ d, e.change = .ok d ∧ e.Names d.toExtent := by
  have hlen := length_splice h
  unfold Fits at h
  have hold : e.start.toNat + e.old.toNat < offsetCount := by omega
  have hnew : e.start.toNat + e.inserted.toNat < offsetCount := by
    rw [toNat_inserted]
    omega
  have hok : e.change = .ok ((Change.ofExtent ⟨0, ⟨_, _, Offset.le_add_of_lt hold⟩,
      ⟨_, _, Offset.le_add_of_lt hnew⟩⟩).withVersion e.version) := by
    rw [change, Change.ofEdit, Extent.ofEdit_of_lt hold hnew]
    rfl
  refine ⟨_, hok, rfl, Offset.toNat_add_of_lt hold, rfl, ?_⟩
  rw [← toNat_inserted]
  exact Offset.toNat_add_of_lt hnew

theorem Names.isEmpty_iff {e : Edit α} {x : Extent} (h : e.Names x) :
    x.isEmpty = true ↔ e.size = 0 := by
  have h₁ := h.before_stop
  have h₂ := h.after_stop
  rw [Extent.isEmpty_iff, ← UInt64.toNat_inj, ← UInt64.toNat_inj, h.before_start, h.after_start,
    size]
  omega

section Lists

variable {es : List (Edit α)} {xs : List Extent}

theorem names_dirty (h : List.Forall₂ Names es xs) :
    List.Forall₂ Names (active es) (Extent.dirty xs) := by
  refine List.rel_filter ?_ h
  intro e x hex
  have := hex.isEmpty_iff
  cases hx : x.isEmpty <;> simp_all [Nat.pos_iff_ne_zero]

theorem map_start_of_names (h : List.Forall₂ Names es xs) :
    (xs.map (·.before)).map (·.start.toNat) = es.map (fun e => e.start.toNat) ∧
      (xs.map (·.after)).map (·.start.toNat) = es.map fun e => e.start.toNat := by
  induction h with
  | nil => exact ⟨rfl, rfl⟩
  | cons hex _ ih =>
    simp only [List.map_cons, hex.before_start, hex.after_start, ih.1, ih.2, and_self]

theorem map_stop_of_names (h : List.Forall₂ Names es xs) :
    (xs.map (·.before)).map (·.stop.toNat) = es.map (fun e => e.start.toNat + e.old.toNat) ∧
      (xs.map (·.after)).map (·.stop.toNat) = es.map fun e => e.start.toNat + e.text.length := by
  induction h with
  | nil => exact ⟨rfl, rfl⟩
  | cons hex _ ih =>
    simp only [List.map_cons, hex.before_stop, hex.after_stop, ih.1, ih.2, and_self]

end Lists

/-- The spans of `x` both begin at the least start of the edits, and run to their greatest ends. -/
structure Encloses (es : List (Edit α)) (x : Extent) : Prop where
  before_start : x.before.start.toNat = leastStart es
  before_stop : x.before.stop.toNat = oldEnd es
  after_start : x.after.start.toNat = leastStart es
  after_stop : x.after.stop.toNat = newEnd es

end Edit

namespace Span

variable {s : Span} {l : List Span}

theorem IsHull.min?_start (h : IsHull s l) :
    (l.map (·.start.toNat)).min? = some s.start.toNat := by
  obtain ⟨t, ht, hts⟩ := h.start_least.1
  refine List.min?_eq_some_iff.mpr ⟨List.mem_map.mpr ⟨t, ht, hts⟩, ?_⟩
  intro n hn
  obtain ⟨r, hr, rfl⟩ := List.mem_map.mp hn
  exact h.start_le hr

theorem IsHull.max?_stop (h : IsHull s l) : (l.map (·.stop.toNat)).max? = some s.stop.toNat := by
  obtain ⟨t, ht, hts⟩ := h.stop_greatest.1
  refine List.max?_eq_some_iff.mpr ⟨List.mem_map.mpr ⟨t, ht, hts⟩, ?_⟩
  intro n hn
  obtain ⟨r, hr, rfl⟩ := List.mem_map.mp hn
  exact h.le_stop hr

end Span

namespace Extent

variable {α : Type} {es : List (Edit α)} {xs : List Extent} {base : Extent}

/-- What a blank extent gathers runs from the least start to the greatest ends. -/
theorem encloses_gathered (h : List.Forall₂ Edit.Names es xs) (hb : base.before = .empty)
    (ha : base.after = .empty) : Edit.Encloses es (xs.foldl combine base) := by
  have hg := gathers_foldl base xs
  have hdirty := Edit.names_dirty h
  by_cases hx : dirty xs = []
  · obtain ⟨hbe, haf⟩ := hg.of_nil hx
    rw [hx, List.forall₂_nil_right_iff] at hdirty
    rw [hb] at hbe
    rw [ha] at haf
    constructor
    · rw [hbe, Edit.leastStart, hdirty]
      rfl
    · rw [hbe, Edit.oldEnd, hdirty]
      rfl
    · rw [haf, Edit.leastStart, hdirty]
      rfl
    · rw [haf, Edit.newEnd, hdirty]
      rfl
  · have hbase : base.isEmpty = true := by
      rw [isEmpty_congr (d := blank) hb ha, isEmpty_blank]
    have hbe := hg.before_hull hx
    have haf := hg.after_hull hx
    rw [sources_of_isEmpty hbase] at hbe haf
    obtain ⟨hstartb, hstarta⟩ := Edit.map_start_of_names hdirty
    obtain ⟨hstopb, hstopa⟩ := Edit.map_stop_of_names hdirty
    constructor
    · rw [Edit.leastStart, ← hstartb, hbe.min?_start, Option.getD_some]
    · rw [Edit.oldEnd, ← hstopb, hbe.max?_stop, Option.getD_some]
    · rw [Edit.leastStart, ← hstarta, haf.min?_start, Option.getD_some]
    · rw [Edit.newEnd, ← hstopa, haf.max?_stop, Option.getD_some]

theorem isEmpty_gathered_iff (h : List.Forall₂ Edit.Names es xs) (hb : base.isEmpty = true) :
    (xs.foldl combine base).isEmpty = true ↔ ∀ e ∈ es, e.size = 0 := by
  have hg := gathers_foldl base xs
  have hdirty := Edit.names_dirty h
  have hidle : (∀ e ∈ es, e.size = 0) ↔ dirty xs = [] := by
    rw [← List.length_eq_zero_iff, ← hdirty.length_eq, List.length_eq_zero_iff, Edit.active,
      List.filter_eq_nil_iff]
    simp
  rw [hidle]
  constructor
  · exact hg.eq_nil_of_isEmpty fun x hx => (mem_dirty.mp hx).2
  · intro hx
    rw [hx] at hg
    rw [hg.isEmpty_of_nil, hb]

end Extent

namespace Change

variable {α : Type}

/-- Reports edits in order and gathers the reports. -/
def gatherEdits (c : Change) (es : List (Edit α)) : Except SpanError Change :=
  es.foldlM (fun c e => do
    let d ← e.change
    .ok (c.combine d)) c

theorem gatherEdits_cons_of_ok {e : Edit α} {d : Change} (h : e.change = .ok d) (c : Change)
    (es : List (Edit α)) : c.gatherEdits (e :: es) = (c.combine d).gatherEdits es := by
  rw [gatherEdits, List.foldlM_cons, h]
  rfl

/-- Valid edits are all reported, and their extents are gathered. -/
theorem gatherEdits_of_valid {limit : ℕ} (hlimit : limit ≤ offsetCount) {cs : List α}
    {es : List (Edit α)} (h : Edit.Valid limit cs es) (c : Change) :
    ∃ d xs, c.gatherEdits es = .ok d ∧ List.Forall₂ Edit.Names es xs ∧
      d.toExtent = xs.foldl Extent.combine c.toExtent := by
  -- The text runs along with the change, since each edit lies in the text that it meets.
  induction es generalizing cs c with
  | nil => exact ⟨c, [], rfl, .nil, rfl⟩
  | cons e es ih =>
    obtain ⟨hcs, hfit, hrest⟩ := h
    obtain ⟨r, hr, hnames⟩ := Edit.change_of_fits hfit (Nat.lt_of_lt_of_le hcs hlimit)
      (Nat.lt_of_lt_of_le hrest.length_lt hlimit)
    obtain ⟨d, xs, hd, hall, hfold⟩ := ih hrest (c.combine r)
    refine ⟨d, r.toExtent :: xs, ?_, .cons hnames hall, hfold⟩
    rw [gatherEdits_cons_of_ok hr, hd]

/-- The extents are gathered, and the texts stay. -/
theorem foldl_combine_eq (c : Change) (ds : List Change) :
    ds.foldl combine c =
      { c with toExtent := (ds.map (·.toExtent)).foldl Extent.combine c.toExtent } := by
  induction ds generalizing c with
  | nil => rfl
  | cons d ds ih =>
    rw [List.foldl_cons, ih]
    rfl

theorem toExtent_foldl_combine (c : Change) (ds : List Change) :
    (ds.foldl combine c).toExtent = (ds.map (·.toExtent)).foldl Extent.combine c.toExtent := by
  rw [foldl_combine_eq]

/-- Putting a change between two texts keeps its spans, unless it is empty away from the start. -/
theorem spans_between {c : Change} {xs : List Extent}
    (h : c.toExtent = xs.foldl Extent.combine .blank) (s t : Snapshot) :
    (c.between s t).before = c.before ∧ (c.between s t).after = c.after := by
  have hg := Extent.gathers_foldl .blank xs
  rw [← h] at hg
  show ((Extent.blank.combine c.toExtent).before = _) ∧ (Extent.blank.combine c.toExtent).after = _
  cases hc : c.toExtent.isEmpty with
  | true =>
    have hnil := hg.eq_nil_of_isEmpty (fun x hx => (Extent.mem_dirty.mp hx).2) hc
    obtain ⟨hb, ha⟩ := hg.of_nil hnil
    rw [Extent.combine_of_ignored _ hc, hb, ha]
    exact ⟨rfl, rfl⟩
  | false =>
    rw [Extent.combine_of_adopted hc Extent.isEmpty_blank]
    exact ⟨rfl, rfl⟩

end Change

end DirtyRegion
