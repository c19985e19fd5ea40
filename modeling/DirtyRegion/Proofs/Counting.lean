import DirtyRegion.Proofs.Agreement

/-!
# Counting — characters before a byte offset

`Text.byteOffset?` goes from a number of characters to a byte offset. The way back cuts the string
at the byte offset and counts: `Text.charsBefore?`. It is refused where a cut would go through a
character.

Main statements: `charsBefore?_eq_some_iff` (each of the two ways undoes the other),
`isValid_iff_exists_byteOffset?` (the byte offsets are the places where a cut is allowed, and no
others), `byteOffset?_append_add` and `offsets_undo_counting`, which puts them together.
-/

namespace DirtyRegion.Text

/-- How many characters stand before a byte offset, if a character begins or the string ends
there. -/
def charsBefore? (s : String) (b : Nat) : Option Nat :=
  (sliceBytes? s 0 b).map String.length

variable {s x y p : String} {j k b e : Nat}

/-! ### Byte offsets by number of characters -/

theorem byteWidth_toList (s : String) : byteWidth s.toList = s.utf8ByteSize := by
  rw [← utf8ByteSize_ofList, String.ofList_toList]

theorem byteWidth_pos {cs : List Char} (h : cs ≠ []) : 0 < byteWidth cs := by
  cases cs with
  | nil => exact absurd rfl h
  | cons c cs =>
    have hc := c.utf8Size_pos
    rw [byteWidth_cons]
    omega

theorem exists_byteOffset?_iff : (∃ b, byteOffset? s k = some b) ↔ k ≤ s.length := by
  rw [← String.length_toList]
  constructor
  · rintro ⟨b, h⟩
    exact (byteOffset?_eq_some_iff.mp h).1
  · intro h
    exact ⟨_, byteOffset?_eq_some_iff.mpr ⟨h, rfl⟩⟩

theorem byteOffset?_zero (s : String) : byteOffset? s 0 = some 0 := by
  simp [byteOffset?_eq_some_iff]

theorem byteOffset?_length (s : String) : byteOffset? s s.length = some s.utf8ByteSize := by
  rw [byteOffset?_eq_some_iff, ← String.length_toList, List.take_length, byteWidth_toList]
  exact ⟨Nat.le_refl _, rfl⟩

/-- The characters between two numbers of characters take at least one byte. -/
theorem byteOffset?_lt (hjk : j < k) (hb : byteOffset? s j = some b)
    (he : byteOffset? s k = some e) : b < e := by
  obtain ⟨-, rfl⟩ := byteOffset?_eq_some_iff.mp hb
  obtain ⟨hk, rfl⟩ := byteOffset?_eq_some_iff.mp he
  obtain ⟨n, rfl⟩ := Nat.exists_eq_add_of_lt hjk
  have hmid : (s.toList.drop j).take (n + 1) ≠ [] := by
    rw [← List.length_pos_iff, List.length_take, List.length_drop]
    omega
  have hpos := byteWidth_pos hmid
  rw [Nat.add_assoc, List.take_add, byteWidth_append]
  omega

/-- No two numbers of characters have the same byte offset. -/
theorem eq_of_byteOffset? (hj : byteOffset? s j = some b) (hk : byteOffset? s k = some b) :
    j = k := by
  rcases Nat.lt_trichotomy j k with h | h | h
  · exact absurd (byteOffset?_lt h hj hk) (Nat.lt_irrefl b)
  · exact h
  · exact absurd (byteOffset?_lt h hk hj) (Nat.lt_irrefl b)

/-! ### Strings put together -/

theorem byteOffset?_append_of_le (y : String) (h : k ≤ x.length) :
    byteOffset? (x ++ y) k = byteOffset? x k := by
  rw [← String.length_toList] at h
  have hxy : k ≤ x.toList.length + y.toList.length := by omega
  rw [byteOffset?_eq, byteOffset?_eq, String.toList_append, List.length_append, if_pos h,
    if_pos hxy, List.take_append_of_le_length h]

theorem byteOffset?_append_add (x y : String) (k : Nat) :
    byteOffset? (x ++ y) (x.length + k) = (byteOffset? y k).map (x.utf8ByteSize + ·) := by
  rw [byteOffset?_eq, byteOffset?_eq, String.toList_append, List.length_append,
    ← String.length_toList, List.take_length_add_append, byteWidth_append, byteWidth_toList]
  by_cases h : k ≤ y.toList.length
  · rw [if_pos h, if_pos (by omega), Option.map_some]
  · rw [if_neg h, if_neg (by omega), Option.map_none]

/-! ### Numbers of characters by byte offset -/

/-- A string may be cut at the byte offsets of characters only. -/
theorem isValid_iff_exists_byteOffset? :
    String.Pos.Raw.IsValid s ⟨b⟩ ↔ ∃ k, byteOffset? s k = some b := by
  constructor
  · intro h
    obtain ⟨front, back, rfl, hb⟩ := String.Pos.Raw.isValid_iff_exists_append.mp h
    obtain rfl : b = front.utf8ByteSize := congrArg String.Pos.Raw.byteIdx hb
    exact ⟨front.length, by rw [byteOffset?_append_of_le back (Nat.le_refl _), byteOffset?_length]⟩
  · rintro ⟨k, h⟩
    exact isValid_of_byteOffset? h

theorem sliceBytes?_of_byteOffset? (h : byteOffset? s k = some b) :
    sliceBytes? s 0 b = some (String.ofList (s.toList.take k)) := by
  obtain ⟨-, rfl⟩ := byteOffset?_eq_some_iff.mp h
  have hcut := sliceBytes?_byteWidth [] (s.toList.take k) (s.toList.drop k)
  rwa [List.nil_append, List.take_append_drop, String.ofList_toList] at hcut

theorem isValid_of_sliceBytes? (h : sliceBytes? s j b = some p) :
    String.Pos.Raw.IsValid s ⟨b⟩ := by
  unfold sliceBytes? at h
  split at h
  · rename_i hcut
    exact hcut.2.1
  · cases h

/-- Counting the characters before a byte offset undoes taking the byte offset, and the other way
around. -/
theorem charsBefore?_eq_some_iff : charsBefore? s b = some k ↔ byteOffset? s k = some b := by
  have hcount : ∀ {n}, byteOffset? s n = some b → charsBefore? s b = some n := by
    intro n h
    have hn := (byteOffset?_eq_some_iff.mp h).1
    rw [charsBefore?, sliceBytes?_of_byteOffset? h, Option.map_some, String.length_ofList,
      List.length_take, Nat.min_eq_left hn]
  constructor
  · intro h
    obtain ⟨p, hp, -⟩ := Option.map_eq_some_iff.mp h
    obtain ⟨n, hn⟩ := isValid_iff_exists_byteOffset?.mp (isValid_of_sliceBytes? hp)
    obtain rfl : n = k := Option.some.inj ((hcount hn).symm.trans h)
    exact hn
  · exact hcount

/-- **Byte offsets undo counting.** A number of characters has a byte offset exactly if the string
has as many, and it is the width of these characters together. A string may be cut there, and the
part before the cut has as many characters again. From zero to the end of the string, byte offsets
increase with the number of characters, and every place where a string may be cut is the byte offset
of exactly one. In two strings put together, the byte offsets of the first one stay, and those of
the second one move on by the bytes of the first. -/
theorem offsets_undo_counting (s : String) :
    (∀ k, (∃ b, byteOffset? s k = some b) ↔ k ≤ s.length) ∧
    (∀ k b, byteOffset? s k = some b →
      b = byteWidth (s.toList.take k) ∧ String.Pos.Raw.IsValid s ⟨b⟩ ∧
        ∃ p, sliceBytes? s 0 b = some p ∧ p.length = k) ∧
    (∀ k b, charsBefore? s b = some k ↔ byteOffset? s k = some b) ∧
    (byteOffset? s 0 = some 0 ∧ byteOffset? s s.length = some s.utf8ByteSize ∧
      ∀ j k b e, j < k → byteOffset? s j = some b → byteOffset? s k = some e → b < e) ∧
    (∀ b, String.Pos.Raw.IsValid s ⟨b⟩ ↔
      ∃ k, byteOffset? s k = some b ∧ ∀ j, byteOffset? s j = some b → j = k) ∧
    ∀ y : String,
      (∀ k, k ≤ s.length → byteOffset? (s ++ y) k = byteOffset? s k) ∧
      ∀ k, byteOffset? (s ++ y) (s.length + k) = (byteOffset? y k).map (s.utf8ByteSize + ·) := by
  refine ⟨fun k => exists_byteOffset?_iff, ?_, fun k b => charsBefore?_eq_some_iff,
    ⟨byteOffset?_zero s, byteOffset?_length s, fun j k b e => byteOffset?_lt⟩, ?_, ?_⟩
  · intro k b h
    obtain ⟨p, hp, hlength⟩ := Option.map_eq_some_iff.mp (charsBefore?_eq_some_iff.mpr h)
    exact ⟨(byteOffset?_eq_some_iff.mp h).2, isValid_of_byteOffset? h, p, hp, hlength⟩
  · intro b
    rw [isValid_iff_exists_byteOffset?]
    constructor
    · rintro ⟨k, hk⟩
      exact ⟨k, hk, fun j hj => eq_of_byteOffset? hj hk⟩
    · rintro ⟨k, hk, -⟩
      exact ⟨k, hk⟩
  · intro y
    exact ⟨fun k => byteOffset?_append_of_le y, byteOffset?_append_add s y⟩

/-- The first five characters take eight bytes and the sixth takes four more. Another string behind
the last one changes nothing. -/
theorem mixedWidths_undo_counting :
    byteOffset? mixedWidths 5 = some 8 ∧ byteOffset? mixedWidths 6 = some 12 ∧ 8 < 12 ∧
      String.Pos.Raw.IsValid mixedWidths ⟨8⟩ ∧
      (∃ p, sliceBytes? mixedWidths 0 12 = some p ∧ p.length = 6) ∧
      charsBefore? mixedWidths 12 = some 6 ∧
      7 ≤ mixedWidths.length ∧
      byteOffset? (mixedWidths ++ "é") 7 = byteOffset? mixedWidths 7 := by
  have hfifth : byteOffset? mixedWidths 5 = some 8 := rfl
  have hsixth : byteOffset? mixedWidths 6 = some 12 := rfl
  have hlength : 7 ≤ mixedWidths.length := Nat.le_refl 7
  obtain ⟨-, hcut, hback, ⟨-, -, hlt⟩, -, happend⟩ := offsets_undo_counting mixedWidths
  exact ⟨hfifth, hsixth, hlt 5 6 8 12 (by decide) hfifth hsixth, (hcut 5 8 hfifth).2.1,
    (hcut 6 12 hsixth).2.2, (hback 6 12).mpr hsixth, hlength, (happend "é").1 7 hlength⟩

end DirtyRegion.Text
