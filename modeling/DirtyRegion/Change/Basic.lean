import DirtyRegion.Extent
import DirtyRegion.Outline
import DirtyRegion.Snapshot

/-!
# Changes — an extent with the two texts it speaks of

A `Change` is an extent with at most one snapshot on either side: the text that its first span
speaks of, and the text that its second span speaks of. Producers gather changes with
`Change.combine`, which touches the extent alone; a consumer takes the gathered change away with
`Change.take` and leaves an empty one at the same version.

- `Change.ofEdit`, `Change.ofEditBetween` describe one edit, the second with its snapshots.
- `Change.attach`, `Change.clear`, `Change.withVersion` set and reset parts of a change.
- `Change.beforeSlice?`, `Change.afterSlice?` look the spans up in the snapshots.
- Two changes are equal when extents and snapshots are, and snapshots are compared by identity.
-/

namespace DirtyRegion

/-- The part of a text that differs from an earlier text, with the two texts. -/
structure Change extends Extent where
  beforeText : Option Snapshot
  afterText : Option Snapshot

namespace Change

instance : BEq Change :=
  ⟨fun c d =>
    c.toExtent == d.toExtent && c.beforeText == d.beforeText && c.afterText == d.afterText⟩

/-! ### Making changes -/

def ofExtent (e : Extent) : Change := ⟨e, none, none⟩

def blank : Change := ofExtent .blank

instance : Inhabited Change := ⟨blank⟩

/-- The change of an edit that puts `new` characters in the place of `old` ones from `start` on. -/
def ofEdit (start old new : Offset) : Except SpanError Change :=
  (Extent.ofEdit start old new).map ofExtent

def withVersion (c : Change) (v : Version) : Change :=
  { c with version := v }

/-- The change between two texts, in the place of any it had before. -/
def attach (c : Change) (before after : Snapshot) : Change :=
  { c with beforeText := some before, afterText := some after }

/-- The change of an edit between two texts. The texts are not looked at. -/
def ofEditBetween (start old new : Offset) (before after : Snapshot) : Except SpanError Change :=
  (ofEdit start old new).map (·.attach before after)

/-! ### Gathering changes -/

/-- Gathers `other` into `c`. The texts stay those of `c`. -/
def combine (c other : Change) : Change :=
  { c with toExtent := c.toExtent.combine other.toExtent }

/-- The change with nothing gathered and no texts, at the same version. -/
def clear (c : Change) : Change :=
  blank.withVersion c.version

/-- The gathered change, and the change to go on with. -/
def take (c : Change) : Change × Change :=
  (c, blank.withVersion c.version)

/-- The change gathered into an empty one, between two texts. -/
def between (c : Change) (before after : Snapshot) : Change :=
  (blank.combine c).attach before after

/-! ### Looking at changes -/

/-- The earlier text of the part that differs. -/
def beforeSlice? (c : Change) : Option String :=
  c.beforeText.bind (TextSource.text? · c.before)

/-- The later text of the part that differs. -/
def afterSlice? (c : Change) : Option String :=
  c.afterText.bind (TextSource.text? · c.after)

/-- The change with its fields, where a text is shown by its length. -/
def outline (c : Change) : Outline :=
  .group "TextChange" [
    ("version", .number c.version.toNat),
    ("old_range", c.before.outline),
    ("new_range", c.after.outline),
    ("old_text_len", .ofOption (c.beforeText.map Snapshot.length)),
    ("new_text_len", .ofOption (c.afterText.map Snapshot.length))]

theorem ofEdit_eq_ok_iff {start old new : Offset} {c : Change} :
    ofEdit start old new = .ok c ↔
      ∃ e, Extent.ofEdit start old new = .ok e ∧ ofExtent e = c :=
  map_eq_ok_iff

/-! ### Parts of a changed change -/

@[simp] theorem toExtent_ofExtent (e : Extent) : (ofExtent e).toExtent = e := rfl

@[simp] theorem toExtent_attach (c : Change) (s t : Snapshot) :
    (c.attach s t).toExtent = c.toExtent := rfl

@[simp] theorem toExtent_combine (c d : Change) :
    (c.combine d).toExtent = c.toExtent.combine d.toExtent := rfl

@[simp] theorem toExtent_clear (c : Change) :
    c.clear.toExtent = ⟨c.version, .empty, .empty⟩ := rfl

@[simp] theorem beforeText_combine (c d : Change) : (c.combine d).beforeText = c.beforeText := rfl

@[simp] theorem afterText_combine (c d : Change) : (c.combine d).afterText = c.afterText := rfl

theorem beq_iff {c d : Change} :
    (c == d) = true ↔
      c.toExtent = d.toExtent ∧ (c.beforeText == d.beforeText) = true ∧
        (c.afterText == d.afterText) = true := by
  show (c.toExtent == d.toExtent && c.beforeText == d.beforeText && c.afterText == d.afterText) =
    true ↔ _
  rw [Bool.and_eq_true, Bool.and_eq_true, beq_iff_eq, and_assoc]

end Change

end DirtyRegion
