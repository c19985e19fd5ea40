import DirtyRegion.Proofs.Acceptance

/-!
# Normal form — the one text that a span is written as

A span can be spelled in many ways, and `Span.toJson` writes one of them: an object without blanks,
with `start` before `end`, keys as they are and offsets in the only way they can be. What is written
is read back, so it stands for all the spellings of the span.

- `rewritten` is the text that a span is written as after it was read.

Main statements: `offsetLiteral_repr` and `denotes_toJson` (what is written is in the grammar) and
`toJson_is_normal_form`.
-/

namespace DirtyRegion.Json

/-- The text of the span that a text denotes. -/
def rewritten (t : String) : Except Fault String :=
  (readSpan t).map Span.toJson

/-! ### What is written -/

/-- The numeral of an offset is how the offset may be written. -/
theorem offsetLiteral_repr (n : Offset) : OffsetLiteral n n.toNat.repr.toList where
  ne_nil := repr_ne_nil n.toNat
  digits _ hd := isDigit_of_mem_repr hd
  no_leading_zero h := by
    rw [eq_zero_of_head?_repr h]
    rfl
  value := by rw [← digitsValue_eq, digitsValue_repr]

/-- Characters without quotes, backslashes and control characters spell themselves. -/
theorem spells_self {cs : List Char} (h : ∀ c ∈ cs, c ≠ '"' ∧ c ≠ '\\' ∧ 0x20 ≤ c.toNat) :
    Spells cs cs := by
  induction cs with
  | nil => exact .nil
  | cons c cs ih =>
    obtain ⟨hquote, hbackslash, hcontrol⟩ := h c (List.mem_cons_self ..)
    exact .cons (.plain hquote hbackslash hcontrol) (ih fun d hd => h d (List.mem_cons_of_mem _ hd))

/-- A key and an offset without blanks are a member. -/
theorem member_of_spells {w : List Char} {key : String} (hkey : Spells w key.toList) (n : Offset) :
    Padded (Member key n) ('"' :: (w ++ '"' :: ':' :: n.toNat.repr.toList)) :=
  .of_core (.mk hkey blanks_nil blanks_nil (offsetLiteral_repr n))

theorem spells_key (f : Field) : Spells f.key.toList f.key.toList := by
  apply spells_self
  cases f <;> simp [Field.key]

/-- Two fields with their offsets, without blanks, are members. -/
theorem members_of_fields (f g : Field) (m n : Offset) :
    Members [(f.key, m), (g.key, n)]
      (('"' :: (f.key.toList ++ '"' :: ':' :: m.toNat.repr.toList)) ++
        ',' :: ('"' :: (g.key.toList ++ '"' :: ':' :: n.toNat.repr.toList))) :=
  .more (member_of_spells (spells_key f) m) (.last (member_of_spells (spells_key g) n))

theorem denotes_toJson (r : Span) : Denotes r.start r.stop r.toJson.toList := by
  have hobject := Denotes.object (members_of_fields .start .stop r.start r.stop) (.refl _)
  simpa [Span.toJson, Field.key] using hobject

theorem readSpan_toJson (r : Span) : readSpan r.toJson = .ok r :=
  readSpan_of_denotes (.of_core (denotes_toJson r))

theorem toJson_injective {r s : Span} (h : r.toJson = s.toJson) : r = s := by
  have hread := readSpan_toJson r
  rw [h, readSpan_toJson s] at hread
  exact (Except.ok.inj hread).symm

/-! ### Rewriting -/

theorem rewritten_of_readSpan {t : String} {r : Span} (h : readSpan t = .ok r) :
    rewritten t = .ok r.toJson := by
  rw [rewritten, h]
  rfl

theorem rewritten_eq_ok_iff {t u : String} :
    rewritten t = .ok u ↔ ∃ r, readSpan t = .ok r ∧ u = r.toJson := by
  constructor
  · intro h
    cases hread : readSpan t with
    | error f =>
      rw [rewritten, hread] at h
      cases h
    | ok r =>
      rw [rewritten_of_readSpan hread] at h
      exact ⟨r, rfl, (Except.ok.inj h).symm⟩
  · rintro ⟨r, hread, rfl⟩
    exact rewritten_of_readSpan hread

/-- **What is written is a normal form.** A span is written as an object with its `start` and then
its `end`, and is read back from that. Different spans are written differently. A text that denotes
a span may be rewritten, which does not alter the span and is done after one time, so that two such
texts denote the same span exactly if they are rewritten to the same text. -/
theorem toJson_is_normal_form :
    (∀ r : Span, readSpan r.toJson = .ok r ∧
      ∃ a b, OffsetLiteral r.start a ∧ OffsetLiteral r.stop b ∧
        r.toJson.toList = "\x7b\"start\":".toList ++ (a ++ (",\"end\":".toList ++ (b ++ ['\x7d'])))) ∧
      (∀ r s : Span, r.toJson = s.toJson → r = s) ∧
      (∀ t r, readSpan t = .ok r → rewritten t = .ok r.toJson ∧ readSpan r.toJson = .ok r) ∧
      (∀ t, rewritten t = .ok t ↔ ∃ r : Span, t = r.toJson) ∧
      ∀ t u r s, readSpan t = .ok r → readSpan u = .ok s → (r = s ↔ rewritten t = rewritten u) := by
  refine ⟨?_, fun _ _ => toJson_injective, ?_, ?_, ?_⟩
  · intro r
    refine ⟨readSpan_toJson r, _, _, offsetLiteral_repr r.start, offsetLiteral_repr r.stop, ?_⟩
    simp [Span.toJson]
  · intro t r h
    exact ⟨rewritten_of_readSpan h, readSpan_toJson r⟩
  · intro t
    rw [rewritten_eq_ok_iff]
    constructor
    · rintro ⟨r, -, ht⟩
      exact ⟨r, ht⟩
    · rintro ⟨r, rfl⟩
      exact ⟨r, readSpan_toJson r, rfl⟩
  · intro t u r s ht hu
    rw [rewritten_of_readSpan ht, rewritten_of_readSpan hu, Except.ok.injEq]
    exact ⟨congrArg Span.toJson, toJson_injective⟩

/-- Keys spelled by their numbers, the last offset, the other order and blanks between. -/
def lavish : String :=
  " \x7b\"\\u0065nd\"\n: 18446744073709551615 , \"star\\u0074\" :9\x7d\t"

theorem lavish_is_rewritten : ∃ r : Span, readSpan lavish = .ok r ∧
    readSpan "[9,18446744073709551615]" = .ok r ∧
      rewritten lavish = rewritten "[9,18446744073709551615]" ∧
        rewritten lavish = .ok "\x7b\"start\":9,\"end\":18446744073709551615\x7d" := by
  have hlavish : readSpan lavish = .ok ⟨9, 18446744073709551615, by decide⟩ := by
    decide +kernel
  have harray : readSpan "[9,18446744073709551615]" = .ok ⟨9, 18446744073709551615, by decide⟩ := by
    decide +kernel
  obtain ⟨-, -, hrewritten, -, hiff⟩ := toJson_is_normal_form
  exact ⟨_, hlavish, harray, (hiff _ _ _ _ hlavish harray).mp rfl, (hrewritten _ _ hlavish).1⟩

end DirtyRegion.Json
