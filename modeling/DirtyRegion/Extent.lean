import DirtyRegion.Span.Lemmas

/-!
# Extents — which part of a text differs from its predecessor

An `Extent` names a span of an earlier text and the span of a later text that took its place, with
the generation of the latest edit in it. Extents are gathered with `Extent.combine`: an empty one
is ignored, the first one is taken over as it is, and from then on each of the two spans becomes
the least interval around the old and the new one. So two edits far apart give one extent, which
also holds the text between them.

- `Extent.ofEdit` is the extent of one edit.
- `Extent.reception` says which of the three cases of `Extent.combine` applies.
- `Extent.shift?` is the distance by which text after the extent moves.

Main statements: `combine_of_ignored`, `combine_of_adopted` and `combine_of_covered`, one per case.
-/

namespace DirtyRegion

/-- The generation of an edit. -/
abbrev Version := UInt64

/-- The part of a text that differs from an earlier text. -/
structure Extent where
  version : Version
  before : Span
  after : Span
  deriving DecidableEq, Repr

namespace Extent

def blank : Extent := ⟨0, .empty, .empty⟩

instance : Inhabited Extent := ⟨blank⟩

/-- The extent of an edit that puts `new` characters in the place of `old` ones from `start` on. -/
def ofEdit (start old new : Offset) : Except SpanError Extent := do
  let before ← Span.ofLength start old
  let after ← Span.ofLength start new
  .ok ⟨0, before, after⟩

/-- Neither span holds a character. -/
def isEmpty (e : Extent) : Bool :=
  e.before.isEmpty && e.after.isEmpty

/-- How an extent gathers another one. -/
inductive Reception where
  /-- The other extent is empty and changes nothing. -/
  | ignored
  /-- The extent is empty and takes the other's spans over. -/
  | adopted
  /-- The spans of both are covered. -/
  | covered
  deriving DecidableEq, Repr

/-- How `e` gathers `other`. -/
def reception (e other : Extent) : Reception :=
  if other.isEmpty then .ignored
  else if e.isEmpty then .adopted
  else .covered

/-- The least extent around both, span by span. -/
def cover (e other : Extent) : Extent :=
  ⟨max e.version other.version, e.before.cover other.before, e.after.cover other.after⟩

def combine (e other : Extent) : Extent :=
  match e.reception other with
  | .ignored => e
  | .adopted => { other with version := max e.version other.version }
  | .covered => e.cover other

/-- The distance by which text after the extent moves, if both lengths and the distance are signed
64-bit numbers. -/
def shift? (e : Extent) : Option Int := do
  let old ← Offset.signed? e.before.length.toNat
  let new ← Offset.signed? e.after.length.toNat
  Offset.signed? (new - old)

/-- The extent on one line, such as `v3 old=[2, 6) new=[2, 9)`. -/
def display (e : Extent) : String :=
  "v" ++ e.version.toNat.repr ++ " old=" ++ e.before.display ++ " new=" ++ e.after.display

/-! ### Extents of edits -/

theorem ofEdit_eq_ok_iff {start old new : Offset} {e : Extent} :
    ofEdit start old new = .ok e ↔
      e.version = 0 ∧ Span.ofLength start old = .ok e.before ∧
        Span.ofLength start new = .ok e.after := by
  unfold ofEdit
  constructor
  · intro h
    obtain ⟨before, hbefore, h⟩ := bind_eq_ok_iff.mp h
    obtain ⟨after, hafter, h⟩ := bind_eq_ok_iff.mp h
    cases h
    exact ⟨rfl, hbefore, hafter⟩
  · rintro ⟨hversion, hbefore, hafter⟩
    rw [hbefore, hafter]
    cases e
    cases hversion
    rfl

theorem ofEdit_of_lt {start old new : Offset} (hold : start.toNat + old.toNat < offsetCount)
    (hnew : start.toNat + new.toNat < offsetCount) :
    ofEdit start old new = .ok ⟨0, ⟨start, start + old, Offset.le_add_of_lt hold⟩,
      ⟨start, start + new, Offset.le_add_of_lt hnew⟩⟩ := by
  rw [ofEdit, Span.ofLength_of_lt hold, Span.ofLength_of_lt hnew]
  rfl

/-! ### The cases of gathering -/

theorem combine_of_ignored (e : Extent) {other : Extent} (h : other.isEmpty = true) :
    e.combine other = e := by
  simp [combine, reception, h]

theorem combine_of_adopted {e other : Extent} (ho : other.isEmpty = false) (he : e.isEmpty = true) :
    e.combine other = ⟨max e.version other.version, other.before, other.after⟩ := by
  simp [combine, reception, ho, he]

theorem combine_of_covered {e other : Extent} (ho : other.isEmpty = false)
    (he : e.isEmpty = false) : e.combine other = e.cover other := by
  simp [combine, reception, ho, he]

theorem isEmpty_iff {e : Extent} :
    e.isEmpty = true ↔ e.before.start = e.before.stop ∧ e.after.start = e.after.stop := by
  rw [isEmpty, Bool.and_eq_true, Span.isEmpty_iff, Span.isEmpty_iff]

@[simp] theorem isEmpty_blank : blank.isEmpty = true := by decide

@[ext] theorem ext {e other : Extent} (hversion : e.version = other.version)
    (hbefore : e.before = other.before) (hafter : e.after = other.after) : e = other := by
  cases e
  cases other
  simp_all

end Extent

end DirtyRegion
