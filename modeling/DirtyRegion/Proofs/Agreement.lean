import DirtyRegion.Snapshot
import DirtyRegion.Text.Query

/-!
# Agreement — every source of a text gives the same answers

A text can be asked as a string, as a rope, or through a snapshot that holds either. `Answers` says
what a source has to answer about a list of characters, each answer in terms of that list alone.
`Text.CutsCleanly` says that a string is never cut inside a character or backwards, so that a part
of it is refused for want of text only.

Main statements: `answers_of_lawful` (whatever answers as a list of characters does gives these
answers), `Text.cutsCleanly` (by induction on the text, through `Text.byteOffset?_eq`), and
`sources_agree`, which puts strings, ropes and snapshots beside each other.
-/

namespace DirtyRegion

/-- What a source has to answer about a text with the characters `cs`. -/
structure Answers {α : Type} [TextSource α] (t : α) (cs : List Char) : Prop where
  length : TextSource.length t = cs.length
  isEmpty : TextSource.isEmpty t = true ↔ cs = []
  charAt : ∀ i : Offset, TextSource.charAt? t i = cs[i.toNat]?
  charAt_eq_none : ∀ i : Offset, TextSource.charAt? t i = none ↔ cs.length ≤ i.toNat
  /-- The text of a span that ends in the text: as many characters as the span is long, from its
  start on. -/
  text_of_le : ∀ r : Span, r.stop.toNat ≤ cs.length →
    TextSource.text? t r = some (String.ofList ((cs.drop r.start.toNat).take r.length.toNat))
  text_eq_none : ∀ r : Span, TextSource.text? t r = none ↔ cs.length < r.stop.toNat

theorem Span.select?_of_le {r : Span} {cs : List Char} (h : r.stop.toNat ≤ cs.length) :
    r.select? cs = some ((cs.drop r.start.toNat).take r.length.toNat) := by
  rw [Span.select?, if_pos h, Span.toNat_length, List.drop_take]

theorem Span.select?_eq_none_iff {r : Span} {cs : List Char} :
    r.select? cs = none ↔ cs.length < r.stop.toNat := by
  unfold Span.select?
  split
  · rename_i h
    simp [h]
  · rename_i h
    simpa using h

/-- A source with a list of characters behind it answers as that list does. -/
theorem answers_of_lawful {α : Type} [TextSource α] [LawfulTextSource α] (t : α) :
    Answers t (LawfulTextSource.toList t) where
  length := LawfulTextSource.length_eq t
  isEmpty := by
    rw [TextSource.isEmpty, LawfulTextSource.length_eq, beq_iff_eq, List.length_eq_zero_iff]
  charAt := LawfulTextSource.charAt?_eq t
  charAt_eq_none i := by
    rw [LawfulTextSource.charAt?_eq, List.getElem?_eq_none_iff]
  text_of_le r h := by
    rw [LawfulTextSource.text?_eq, Span.select?_of_le h, Option.map_some]
  text_eq_none r := by
    rw [LawfulTextSource.text?_eq, Option.map_eq_none_iff, Span.select?_eq_none_iff]

/-- Two sources of the same characters give the same answer to every query. -/
theorem Answers.ask_eq {α β : Type} [TextSource α] [TextSource β] {t : α} {u : β}
    {cs : List Char} (ht : Answers t cs) (hu : Answers u cs) (q : Query) : q.ask t = q.ask u := by
  have hlength : TextSource.length t = TextSource.length u := ht.length.trans hu.length.symm
  cases q with
  | length => rw [Query.ask, Query.ask, hlength]
  | isEmpty => rw [Query.ask, Query.ask, TextSource.isEmpty, TextSource.isEmpty, hlength]
  | charAt i => rw [Query.ask, Query.ask, ht.charAt, hu.charAt]
  | text start stop =>
    have htext : ∀ r : Span, TextSource.text? t r = TextSource.text? u r := by
      intro r
      rcases Nat.lt_or_ge cs.length r.stop.toNat with h | h
      · rw [(ht.text_eq_none r).mpr h, (hu.text_eq_none r).mpr h]
      · rw [ht.text_of_le r h, hu.text_of_le r h]
    simp only [Query.ask, htext]

namespace Text

/-- Wherever both ends of a span have byte offsets, these stand where a character begins or the text
ends, the first one not after the second, and so the bytes between them are cut out. -/
def CutsCleanly (s : String) (r : Span) : Prop :=
  ∀ b e : Nat, byteOffset? s r.start.toNat = some b → byteOffset? s r.stop.toNat = some e →
    String.Pos.Raw.IsValid s ⟨b⟩ ∧ String.Pos.Raw.IsValid s ⟨e⟩ ∧ b ≤ e ∧
      (sliceBytes? s b e).isSome = true

theorem isValid_of_byteOffset? {s : String} {k b : Nat} (h : byteOffset? s k = some b) :
    String.Pos.Raw.IsValid s ⟨b⟩ := by
  obtain ⟨-, rfl⟩ := byteOffset?_eq_some_iff.mp h
  have hvalid := isValid_byteWidth (s.toList.take k) (s.toList.drop k)
  rwa [List.take_append_drop, String.ofList_toList] at hvalid

/-- Byte offsets come in the order of the characters. -/
theorem byteOffset?_mono {s : String} {j k b e : Nat} (hjk : j ≤ k)
    (hb : byteOffset? s j = some b) (he : byteOffset? s k = some e) : b ≤ e := by
  obtain ⟨-, rfl⟩ := byteOffset?_eq_some_iff.mp hb
  obtain ⟨-, rfl⟩ := byteOffset?_eq_some_iff.mp he
  obtain ⟨n, rfl⟩ := Nat.exists_eq_add_of_le hjk
  rw [List.take_add, byteWidth_append]
  exact Nat.le_add_right _ _

theorem cutsCleanly (s : String) (r : Span) : CutsCleanly s r := by
  intro b e hb he
  have hvb := isValid_of_byteOffset? hb
  have hve := isValid_of_byteOffset? he
  have hle := byteOffset?_mono r.toNat_start_le_stop hb he
  refine ⟨hvb, hve, hle, ?_⟩
  rw [sliceBytes?, dif_pos ⟨hvb, hve, hle⟩]
  rfl

end Text

/-- **All sources of a text agree.** A string, any rope with its characters, and snapshots that hold
either one answer as the list of the characters does, hence alike, and cutting the string out of its
bytes never goes wrong. -/
theorem sources_agree (s : String) (r : Rope) (h : r.toList = s.toList) (i j : Nat) :
    Answers s s.toList ∧ Answers r s.toList ∧
      Answers (Snapshot.mk i (.plain s)) s.toList ∧ Answers (Snapshot.mk j (.rope r)) s.toList ∧
      (∀ q : Query, q.ask r = q.ask s ∧ q.ask (Snapshot.mk i (.plain s)) = q.ask s ∧
        q.ask (Snapshot.mk j (.rope r)) = q.ask s) ∧
      ∀ span : Span, Text.CutsCleanly s span := by
  have hplain : Answers s s.toList := answers_of_lawful s
  have hrope : Answers r s.toList := h ▸ answers_of_lawful r
  have hplainSnapshot : Answers (Snapshot.mk i (.plain s)) s.toList := answers_of_lawful _
  have hropeSnapshot : Answers (Snapshot.mk j (.rope r)) s.toList := h ▸ answers_of_lawful _
  refine ⟨hplain, hrope, hplainSnapshot, hropeSnapshot, ?_, Text.cutsCleanly s⟩
  intro q
  exact ⟨hrope.ask_eq hplain q, hplainSnapshot.ask_eq hplain q, hropeSnapshot.ask_eq hplain q⟩

/-- Characters of one, two, three and four bytes around a line break of two characters. -/
def mixedWidths : String := "aé\r\n€🚀b"

/-- The same characters, with a chunk that ends inside the line break. -/
def mixedWidthsRope : Rope :=
  (Rope.chunk ['a', 'é', '\r']).append ((Rope.chunk ['\n', '€']).append (Rope.chunk ['🚀', 'b']))

theorem mixedWidths_sources_agree :
    mixedWidthsRope.toList = mixedWidths.toList ∧
      Answers mixedWidths mixedWidths.toList ∧ Answers mixedWidthsRope mixedWidths.toList ∧
      (∀ q : Query, q.ask mixedWidthsRope = q.ask mixedWidths) ∧
      (Query.text 1 6).ask mixedWidths = .ok (.text (some "é\r\n€🚀")) ∧
      (Query.text 7 7).ask mixedWidthsRope = .ok (.text (some "")) ∧
      (Query.text 8 8).ask mixedWidths = .ok (.text none) := by
  have hchars : mixedWidthsRope.toList = mixedWidths.toList := by decide
  obtain ⟨hplain, hrope, -, -, hask, -⟩ := sources_agree mixedWidths mixedWidthsRope hchars 0 1
  have hsame : ∀ q : Query, q.ask mixedWidthsRope = q.ask mixedWidths := fun q => (hask q).1
  refine ⟨hchars, hplain, hrope, hsame, ?_, rfl, ?_⟩
  · rw [← hsame]
    rfl
  · rw [← hsame]
    rfl

end DirtyRegion
