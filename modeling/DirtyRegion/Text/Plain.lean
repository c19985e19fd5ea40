import DirtyRegion.Span.Lemmas
import DirtyRegion.Text.Boundary
import DirtyRegion.Text.Source

/-!
# Plain strings as text sources

A string is searched from its first character on. The text of a span is cut out of the bytes: both
ends of the span become byte offsets first.

Main statement: `Text.sliceOf?_eq`, the cut is the list of characters in the span, so strings are
lawful text sources.
-/

namespace DirtyRegion

namespace Text

/-- The part of a string in a span, cut out of its bytes. -/
def sliceOf? (s : String) (r : Span) : Option String := do
  let b ← byteOffset? s r.start.toNat
  let e ← byteOffset? s r.stop.toNat
  sliceBytes? s b e

theorem sliceOf?_eq (s : String) (r : Span) :
    sliceOf? s r = (r.select? s.toList).map String.ofList := by
  have hle := r.toNat_start_le_stop
  by_cases h : r.stop.toNat ≤ s.toList.length
  · have hb : byteOffset? s r.start.toNat = some (byteWidth (s.toList.take r.start.toNat)) :=
      byteOffset?_eq_some_iff.mpr ⟨Nat.le_trans hle h, rfl⟩
    have he : byteOffset? s r.stop.toNat = some (byteWidth (s.toList.take r.stop.toNat)) :=
      byteOffset?_eq_some_iff.mpr ⟨h, rfl⟩
    have hmid : s.toList.take r.start.toNat ++ (s.toList.take r.stop.toNat).drop r.start.toNat =
        s.toList.take r.stop.toNat := by
      have ht : s.toList.take r.start.toNat = (s.toList.take r.stop.toNat).take r.start.toNat := by
        rw [List.take_take, Nat.min_eq_left hle]
      rw [ht, List.take_append_drop]
    have key := sliceBytes?_byteWidth (s.toList.take r.start.toNat)
      ((s.toList.take r.stop.toNat).drop r.start.toNat) (s.toList.drop r.stop.toNat)
    rw [hmid, List.take_append_drop, String.ofList_toList] at key
    rw [Span.select?, if_pos h, sliceOf?, hb, he]
    exact key
  · have he : byteOffset? s r.stop.toNat = none := by
      rw [byteOffset?_eq, if_neg h]
    rw [Span.select?, if_neg h, sliceOf?, he]
    -- The end of the span is asked for only after its start, and has no byte offset.
    cases byteOffset? s r.start.toNat <;> rfl

end Text

instance : TextSource String where
  length s := s.length
  charAt? s i := s.toList[i.toNat]?
  text? s r := Text.sliceOf? s r

instance : LawfulTextSource String where
  toList s := s.toList
  length_eq _ := String.length_toList.symm
  charAt?_eq _ _ := rfl
  text?_eq s r := Text.sliceOf?_eq s r

end DirtyRegion
