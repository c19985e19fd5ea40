import DirtyRegion.Proofs.Agreement
import DirtyRegion.Proofs.Enclosure
import DirtyRegion.Proofs.Slice

/-!
# Excerpts — slices of what was gathered

What two changes are gathered as is read against the texts of the first one, whatever texts the second
one speaks of. The slice of a cover is there exactly if the text reaches to the ends of both spans, and
then it holds the text of either span in its place.

- `Side` names the two sides of a change, and `Change.span`, `Change.snapshot?` and `Change.slice?` are
  what stands on a side.
- `Span.Excerpt whole part x y` says where the text `y` of `part` stands in the text `x` of `whole`.

Main statements: `Snapshot.exists_excerpt` (a text that holds the whole holds every part of it) and
`slices_survive`.
-/

namespace DirtyRegion

/-- A side of a change: the earlier text or the later one. -/
inductive Side where
  | before
  | after

namespace Span

/-- The text `x` of `whole` holds the text `y` of `part`: as many characters as `part` is long, behind
as many as `part` starts behind `whole`. -/
structure Excerpt (whole part : Span) (x y : String) : Prop where
  encloses : whole.Encloses part
  length : y.length = part.length.toNat
  stands : ∃ front back, front.length = part.start.toNat - whole.start.toNat ∧
    x = front ++ y ++ back

/-- What is left of a text from before a span on, cut at both ends of the span. -/
theorem drop_eq_append {α : Type} {r : Span} (cs : List α) {i : ℕ} (hi : i ≤ r.start.toNat)
    (h : r.start.toNat ≤ cs.length) :
    cs.drop i = (cs.take r.start.toNat).drop i ++
      (cs.take r.stop.toNat).drop r.start.toNat ++ cs.drop r.stop.toNat := by
  have hfront : i ≤ (cs.take r.start.toNat).length := by
    rw [List.length_take, Nat.min_eq_left h]
    exact hi
  rw [List.append_assoc, ← List.drop_append_of_le_length hfront, ← List.append_assoc,
    Change.take_append_span]

end Span

namespace Snapshot

variable {s : Snapshot} {r whole part : Span} {x : String}

theorem length_eq (s : Snapshot) : s.length = s.toList.length :=
  LawfulTextSource.length_eq s

theorem exists_text?_iff : (∃ x, TextSource.text? s r = some x) ↔ r.stop.toNat ≤ s.length := by
  rw [length_eq]
  constructor
  · rintro ⟨x, hx⟩
    exact (text?_eq_some_iff.mp hx).1
  · intro h
    obtain ⟨x, hx, -⟩ := text?_of_le h
    exact ⟨x, hx⟩

theorem length_of_text? (h : TextSource.text? s r = some x) : x.length = r.length.toNat := by
  obtain ⟨hstop, hx⟩ := text?_eq_some_iff.mp h
  rw [← String.length_toList, hx, List.length_drop, List.length_take, Nat.min_eq_left hstop,
    r.toNat_length]

/-- A text that holds the whole holds every part of it, and in its place. -/
theorem exists_excerpt (h : whole.Encloses part) (hx : TextSource.text? s whole = some x) :
    ∃ y, TextSource.text? s part = some y ∧ whole.Excerpt part x y := by
  obtain ⟨hstart, hstop⟩ := Span.encloses_iff.mp h
  obtain ⟨hwhole, hxtext⟩ := text?_eq_some_iff.mp hx
  obtain ⟨y, hy, hytext⟩ := text?_of_le (s := s) (r := part) (Nat.le_trans hstop hwhole)
  have hle := part.toNat_start_le_stop
  -- Both are cut out of the text up to the end of the whole.
  generalize hcs : s.toList.take whole.stop.toNat = cs at hxtext
  have hlength : part.start.toNat ≤ cs.length := by
    rw [← hcs, List.length_take, Nat.min_eq_left hwhole]
    omega
  have hpart : (cs.take part.stop.toNat).drop part.start.toNat = y.toList := by
    rw [hytext, ← hcs, List.take_take, Nat.min_eq_left hstop]
  refine ⟨y, hy, h, length_of_text? hy,
    String.ofList ((cs.take part.start.toNat).drop whole.start.toNat),
    String.ofList (cs.drop part.stop.toNat), ?_, ?_⟩
  · rw [String.length_ofList, List.length_drop, List.length_take, Nat.min_eq_left hlength]
  · rw [← String.toList_inj, hxtext, Span.drop_eq_append cs hstart hlength, hpart]
    simp

end Snapshot

namespace Change

section Defs

def span (c : Change) : Side → Span
  | .before => c.before
  | .after => c.after

def snapshot? (c : Change) : Side → Option Snapshot
  | .before => c.beforeText
  | .after => c.afterText

def slice? (c : Change) : Side → Option String
  | .before => c.beforeSlice?
  | .after => c.afterSlice?

end Defs

variable {a b c : Change} {s : Snapshot} {side : Side}

theorem slice?_of_none (h : c.snapshot? side = none) : c.slice? side = none := by
  cases side with
  | before => exact congrArg (Option.bind · _) h
  | after => exact congrArg (Option.bind · _) h

theorem slice?_of_some (h : c.snapshot? side = some s) :
    c.slice? side = TextSource.text? s (c.span side) := by
  cases side with
  | before => exact beforeSlice?_eq h
  | after => exact afterSlice?_eq h

theorem snapshot?_combine (a b : Change) (side : Side) :
    (a.combine b).snapshot? side = a.snapshot? side := by
  cases side <;> rfl

theorem combine_of_isEmpty (a : Change) (hb : b.isEmpty = true) : a.combine b = a := by
  rw [combine, Extent.combine_of_ignored _ hb]

theorem span_combine_of_adopted (ha : a.isEmpty = true) (hb : b.isEmpty = false) (side : Side) :
    (a.combine b).span side = b.span side := by
  rw [combine, Extent.combine_of_adopted hb ha]
  cases side <;> rfl

theorem span_combine_of_covered (ha : a.isEmpty = false) (hb : b.isEmpty = false) (side : Side) :
    (a.combine b).span side = (a.span side).cover (b.span side) := by
  rw [combine, Extent.combine_of_covered hb ha]
  cases side <;> rfl

/-- **Slices survive.** On either side, a change that gathers another one goes on to be read against
its own text, if it has one. If neither of the two is empty, the slice is there exactly if the text
reaches to the ends of both spans; it is as long as the gathered span and holds the text of either
span in its place. An empty change does not show in the slice. -/
theorem slices_survive (a b : Change) (side : Side) :
    (a.snapshot? side = none → (a.combine b).slice? side = none) ∧
    (b.isEmpty = true → (a.combine b).slice? side = a.slice? side) ∧
    ∀ s, a.snapshot? side = some s →
      (a.isEmpty = true → b.isEmpty = false →
        (a.combine b).slice? side = TextSource.text? s (b.span side)) ∧
      (a.isEmpty = false → b.isEmpty = false →
        ((∃ x, (a.combine b).slice? side = some x) ↔
          (a.span side).stop.toNat ≤ s.length ∧ (b.span side).stop.toNat ≤ s.length) ∧
        ∀ x, (a.combine b).slice? side = some x →
          x.length = ((a.combine b).span side).length.toNat ∧
          (∃ y, a.slice? side = some y ∧
            ((a.combine b).span side).Excerpt (a.span side) x y) ∧
          ∃ z, TextSource.text? s (b.span side) = some z ∧
            ((a.combine b).span side).Excerpt (b.span side) x z) := by
  refine ⟨?_, ?_, ?_⟩
  · intro h
    exact slice?_of_none ((snapshot?_combine a b side).trans h)
  · intro hb
    rw [combine_of_isEmpty a hb]
  · intro s hs
    have hslice := slice?_of_some ((snapshot?_combine a b side).trans hs)
    constructor
    · intro ha hb
      rw [hslice, span_combine_of_adopted ha hb]
    · intro ha hb
      rw [hslice, span_combine_of_covered ha hb, slice?_of_some hs]
      refine ⟨?_, fun x hx => ⟨Snapshot.length_of_text? hx, ?_, ?_⟩⟩
      · rw [Snapshot.exists_text?_iff, Span.toNat_cover_stop, Nat.max_le]
      · exact Snapshot.exists_excerpt (Span.encloses_cover_left _ _) hx
      · exact Snapshot.exists_excerpt (Span.encloses_cover_right _ _) hx

/-- A deletion in a rope. The later text is cut off before the place of `otherDeletion`. -/
def ropeDeletion : Change :=
  (ofEditAt 1 1 1 0).attach ⟨0, .rope mixedWidthsRope⟩ ⟨1, .plain "a\r\n"⟩

/-- A deletion further on, which speaks of texts that are too short for it. -/
def otherDeletion : Change :=
  (ofEditAt 2 5 1 0).attach ⟨2, .plain "x"⟩ ⟨3, .plain ""⟩

theorem deletions_survive :
    ropeDeletion.snapshot? .before = some ⟨0, .rope mixedWidthsRope⟩ ∧
      ropeDeletion.isEmpty = false ∧ otherDeletion.isEmpty = false ∧
      (ropeDeletion.combine otherDeletion).slice? .before = some "é\r\n€🚀" ∧
      (∃ y, ropeDeletion.slice? .before = some y ∧
        ((ropeDeletion.combine otherDeletion).span .before).Excerpt (ropeDeletion.span .before)
          "é\r\n€🚀" y) ∧
      ¬∃ x, (ropeDeletion.combine otherDeletion).slice? .after = some x := by
  have hrope : ropeDeletion.isEmpty = false := by decide
  have hother : otherDeletion.isEmpty = false := by decide
  obtain ⟨-, -, hbefore⟩ := slices_survive ropeDeletion otherDeletion .before
  obtain ⟨-, -, hafter⟩ := slices_survive ropeDeletion otherDeletion .after
  obtain ⟨-, hread⟩ := (hbefore _ rfl).2 hrope hother
  obtain ⟨hreach, -⟩ := (hafter _ rfl).2 hrope hother
  have hslice : (ropeDeletion.combine otherDeletion).slice? .before = some "é\r\n€🚀" := rfl
  refine ⟨rfl, hrope, hother, hslice, (hread _ hslice).2.1, ?_⟩
  rw [hreach]
  decide

end Change

end DirtyRegion
