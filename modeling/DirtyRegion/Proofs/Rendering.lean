import DirtyRegion.Change.Basic
import DirtyRegion.Proofs.Ink

/-!
# Renderings — what the texts of changes and errors tell

A change is written on one line, or as an outline in one of two layouts; an error is worded, or
written as an outline too. All of these are read back: a change up to the texts it speaks of, of
which an outline tells no more than the lengths, and an error in full.

- `SpanError.reader` reads the words of an error.
- `Snapshot.CountsAgree` says how far an outline tells two texts apart.

Main statements: `Change.outline_eq_iff` (the outline holds the extent and the lengths),
`SpanError.reader_message`, and `renderings_read_back`, which puts them together with the layouts of
outlines.
-/

namespace DirtyRegion

open Json (NoDigit noDigit_cons noDigit_nil)

section Defs

/-- Both texts are missing, or both are there and have as many characters. -/
def Snapshot.CountsAgree (s t : Option Snapshot) : Prop :=
  s.isSome = t.isSome ∧ ∀ x ∈ s, ∀ y ∈ t, x.length = y.length

def Extent.read? (text : String) : Option Extent :=
  Extent.reader.whole? text.toList

/-- The words of an error, by how they begin. -/
def SpanError.reader : Reader SpanError :=
  (do
    Reader.literal "invalid range: end "
    let stop ← Reader.offset
    Reader.literal " is before start "
    let start ← Reader.offset
    return .endBeforeStart start stop) <|>
  (do
    Reader.literal "invalid range: start "
    let start ← Reader.offset
    Reader.literal " with length "
    let length ← Reader.offset
    Reader.literal " overflows"
    return .lengthOverflow start length)

def SpanError.read? (text : String) : Option SpanError :=
  SpanError.reader.whole? text.toList

end Defs

/-! ### Outlines of parts -/

namespace Outline

theorem named_ofOption (n : Option ℕ) : (ofOption n).Named := by
  cases n <;> trivial

theorem ofOption_inj {m n : Option ℕ} : ofOption m = ofOption n ↔ m = n := by
  cases m <;> cases n <;> simp [ofOption]

end Outline

theorem Snapshot.countsAgree_iff {s t : Option Snapshot} :
    CountsAgree s t ↔ s.map length = t.map length := by
  cases s <;> cases t <;> simp [CountsAgree]

theorem Span.named_outline (s : Span) : s.outline.Named :=
  ⟨by decide, by decide, trivial, by decide, trivial, trivial⟩

theorem Span.outline_inj {s t : Span} : s.outline = t.outline ↔ s = t := by
  constructor
  · intro h
    simp only [outline, Outline.group.injEq, List.cons.injEq, Prod.mk.injEq, Outline.number.injEq,
      true_and, and_true] at h
    exact ext_toNat h.1 h.2
  · rintro rfl
    rfl

/-! ### Changes -/

theorem Extent.read?_display (e : Extent) : read? e.display = some e :=
  Reader.whole?_of_append (Extent.reader_display e [])

theorem Extent.display_eq_iff {e other : Extent} :
    e.display = other.display ↔
      e.version = other.version ∧ e.before = other.before ∧ e.after = other.after := by
  rw [Reader.eq_iff_of_read (read?_display e) (read?_display other), Extent.ext_iff]

namespace Change

theorem named_outline (c : Change) : c.outline.Named :=
  ⟨by decide, by decide, trivial, by decide, c.before.named_outline, by decide,
    c.after.named_outline, by decide, Outline.named_ofOption _, by decide,
    Outline.named_ofOption _, trivial⟩

/-- The outline of a change holds its extent and the lengths of its texts. -/
theorem outline_eq_iff {c d : Change} :
    c.outline = d.outline ↔
      (c.version = d.version ∧ c.before = d.before ∧ c.after = d.after) ∧
        Snapshot.CountsAgree c.beforeText d.beforeText ∧
        Snapshot.CountsAgree c.afterText d.afterText := by
  rw [Snapshot.countsAgree_iff, Snapshot.countsAgree_iff]
  simp [outline, Span.outline_inj, Outline.ofOption_inj, UInt64.toNat_inj, and_assoc]

end Change

/-! ### Errors -/

namespace SpanError

/-- **An error is read back** from its words, so far as the last number ends with them. -/
theorem reader_message (e : SpanError) {rest : List Char} (h : NoDigit rest) :
    reader (e.message.toList ++ rest) = some (e, rest) := by
  cases e with
  | endBeforeStart start stop =>
    have hmid : NoDigit (" is before start ".toList ++ (start.toNat.repr.toList ++ rest)) :=
      noDigit_cons rfl _
    show reader (("invalid range: end " ++ stop.toNat.repr ++ " is before start " ++
      start.toNat.repr).toList ++ rest) = _
    simp only [String.toList_append, List.append_assoc]
    apply Reader.orElse_of_some
    rw [Reader.literal_bind, Reader.bind_of_some (Reader.offset_append stop hmid),
      Reader.literal_bind, Reader.bind_of_some (Reader.offset_append start h)]
    rfl
  | lengthOverflow start length =>
    have hmid : NoDigit (" with length ".toList ++ (length.toNat.repr.toList ++
        (" overflows".toList ++ rest))) := noDigit_cons rfl _
    have hend : NoDigit (" overflows".toList ++ rest) := noDigit_cons rfl _
    have happart : Reader.apart "invalid range: end " "invalid range: start " = true := by decide
    show reader (("invalid range: start " ++ start.toNat.repr ++ " with length " ++
      length.toNat.repr ++ " overflows").toList ++ rest) = _
    simp only [String.toList_append, List.append_assoc]
    rw [reader, Reader.orElse_of_none (Reader.literal_bind_of_apart happart _ _),
      Reader.literal_bind, Reader.bind_of_some (Reader.offset_append start hmid),
      Reader.literal_bind, Reader.bind_of_some (Reader.offset_append length hend),
      Reader.literal_bind]
    rfl

theorem read?_message (e : SpanError) : read? e.message = some e :=
  Reader.whole?_of_append (reader_message e noDigit_nil)

theorem named_outline (e : SpanError) : e.outline.Named := by
  cases e <;> exact ⟨by decide, by decide, trivial, by decide, trivial, trivial⟩

theorem outline_inj {e f : SpanError} : e.outline = f.outline ↔ e = f := by
  cases e <;> cases f <;> simp [outline, UInt64.toNat_inj]

end SpanError

/-! ### All texts -/

/-- **Renderings are read back.** The line of a change tells its version and its two spans, and
nothing else. Its outline tells these and, on either side, whether there is a text and how many
characters it has; so it does in both layouts, which therefore tell changes apart alike. The words
of an error and both layouts of its outline tell the whole error, cause and numbers. -/
theorem renderings_read_back (c d : Change) (e f : SpanError) :
    (Extent.read? c.display = some c.toExtent ∧
      (c.display = d.display ↔
        c.version = d.version ∧ c.before = d.before ∧ c.after = d.after)) ∧
    (Outline.read? c.outline.line = some c.outline ∧
      (c.outline.line = d.outline.line ↔
        (c.version = d.version ∧ c.before = d.before ∧ c.after = d.after) ∧
          Snapshot.CountsAgree c.beforeText d.beforeText ∧
          Snapshot.CountsAgree c.afterText d.afterText)) ∧
    (Outline.read? c.outline.block = some c.outline ∧
      (c.outline.block = d.outline.block ↔ c.outline.line = d.outline.line)) ∧
    (SpanError.read? e.message = some e ∧ (e.message = f.message ↔ e = f)) ∧
    (e.outline.line = f.outline.line ↔ e = f) ∧
    (e.outline.block = f.outline.block ↔ e = f) := by
  have hc := c.named_outline
  have hd := d.named_outline
  have he := e.named_outline
  have hf := f.named_outline
  have hmessage := Reader.eq_iff_of_read (SpanError.read?_message e) (SpanError.read?_message f)
  refine ⟨⟨Extent.read?_display _, Extent.display_eq_iff⟩, ⟨Outline.read?_line hc, ?_⟩,
    ⟨Outline.read?_block hc, ?_⟩, ⟨SpanError.read?_message e, hmessage⟩, ?_, ?_⟩
  · rw [Outline.line_inj hc hd, Change.outline_eq_iff]
  · rw [Outline.block_inj hc hd, Outline.line_inj hc hd]
  · rw [Outline.line_inj he hf, SpanError.outline_inj]
  · rw [Outline.block_inj he hf, SpanError.outline_inj]

end DirtyRegion
