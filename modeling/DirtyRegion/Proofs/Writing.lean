import DirtyRegion.Proofs.NormalForm

/-!
# Writing — objects and arrays of any size

An object may have any members and an array any offsets, not only those of a span. Each can be
written, since each key and each offset can.

- `ObjectText`, `ArrayText` are the texts with given members and with given offsets.

Main statements: `exists_object` and `exists_array`.
-/

namespace DirtyRegion.Json

variable {cs : List Char} {n : Offset} {values : List Offset}

/-! ### Texts -/

/-- An object with the given members. -/
inductive ObjectText : List (String × Offset) → List Char → Prop
  | empty {ws : List Char} (h : Blanks ws) : ObjectText [] ('\x7b' :: (ws ++ ['\x7d']))
  | members {members : List (String × Offset)} {cs : List Char} (h : Members members cs) :
      ObjectText members ('\x7b' :: (cs ++ ['\x7d']))

/-- Offsets with commas between them. -/
inductive Elements : List Offset → List Char → Prop
  | last {n : Offset} {a : List Char} (h : Padded (OffsetLiteral n) a) : Elements [n] a
  | more {n : Offset} {a : List Char} {values : List Offset} {cs : List Char}
      (h : Padded (OffsetLiteral n) a) (hs : Elements values cs) :
      Elements (n :: values) (a ++ ',' :: cs)

/-- An array with the given offsets. -/
inductive ArrayText : List Offset → List Char → Prop
  | empty {ws : List Char} (h : Blanks ws) : ArrayText [] ('[' :: (ws ++ [']']))
  | elements {values : List Offset} {cs : List Char} (h : Elements values cs) :
      ArrayText values ('[' :: (cs ++ [']']))

/-! ### Members and offsets can be written -/

theorem exists_hexDigit {n : ℕ} (h : n < 16) : ∃ c, HexDigit c n :=
  ⟨_, .inl (List.getElem?_eq_getElem (l := "0123456789abcdef".toList) h)⟩

theorem exists_hexGroup {n : ℕ} (h : n < 0x10000) : ∃ ds, HexGroup ds n := by
  obtain ⟨a, ha⟩ := exists_hexDigit (n := n / 4096) (by omega)
  obtain ⟨b, hb⟩ := exists_hexDigit (n := n / 256 % 16) (by omega)
  obtain ⟨c, hc⟩ := exists_hexDigit (n := n / 16 % 16) (by omega)
  obtain ⟨d, hd⟩ := exists_hexDigit (n := n % 16) (by omega)
  have hgroup := HexGroup.mk ha hb hc hd
  rw [show ((n / 4096 * 16 + n / 256 % 16) * 16 + n / 16 % 16) * 16 + n % 16 = n by omega] at hgroup
  exact ⟨_, hgroup⟩

/-- Any character can be written inside of quotes. -/
theorem exists_spelling (c : Char) : ∃ w, Spelling w c := by
  by_cases hquote : c = '"'
  · exact ⟨['\\', '"'], .letter (by simp [letters, hquote])⟩
  by_cases hbackslash : c = '\\'
  · exact ⟨['\\', '\\'], .letter (by simp [letters, hbackslash])⟩
  by_cases hcontrol : 0x20 ≤ c.toNat
  · exact ⟨[c], .plain hquote hbackslash hcontrol⟩
  · obtain ⟨ds, hds⟩ := exists_hexGroup (n := c.toNat) (by omega)
    exact ⟨_, .hex hds⟩

theorem exists_spells (cs : List Char) : ∃ w, Spells w cs := by
  induction cs with
  | nil => exact ⟨[], .nil⟩
  | cons c cs ih =>
    obtain ⟨w, hw⟩ := exists_spelling c
    obtain ⟨ws, hws⟩ := ih
    exact ⟨w ++ ws, .cons hw hws⟩

theorem exists_member (p : String × Offset) : ∃ m, Padded (Member p.1 p.2) m := by
  obtain ⟨w, hw⟩ := exists_spells p.1.toList
  exact ⟨_, member_of_spells hw p.2⟩

theorem exists_members (p : String × Offset) (members : List (String × Offset)) :
    ∃ cs, Members (p :: members) cs := by
  obtain ⟨m, hm⟩ := exists_member p
  induction members generalizing p m with
  | nil => exact ⟨m, .last hm⟩
  | cons q members ih =>
    obtain ⟨m', hm'⟩ := exists_member q
    obtain ⟨cs, hcs⟩ := ih q m' hm'
    exact ⟨m ++ ',' :: cs, .more hm hcs⟩

theorem exists_elements (n : Offset) (values : List Offset) :
    ∃ cs, Elements (n :: values) cs := by
  induction values generalizing n with
  | nil => exact ⟨_, .last (.of_core (offsetLiteral_repr n))⟩
  | cons m values ih =>
    obtain ⟨cs, hcs⟩ := ih m
    exact ⟨_, .more (.of_core (offsetLiteral_repr n)) hcs⟩

/-- Any members can be written as an object. -/
theorem exists_object (members : List (String × Offset)) :
    ∃ t : String, Padded (ObjectText members) t.toList := by
  obtain ⟨cs, hcs⟩ : ∃ cs, ObjectText members cs := by
    cases members with
    | nil => exact ⟨_, .empty blanks_nil⟩
    | cons p members =>
      obtain ⟨cs, hcs⟩ := exists_members p members
      exact ⟨_, .members hcs⟩
  exact ⟨String.ofList cs, by rw [String.toList_ofList]; exact .of_core hcs⟩

/-- Any offsets can be written as an array. -/
theorem exists_array (values : List Offset) :
    ∃ t : String, Padded (ArrayText values) t.toList := by
  obtain ⟨cs, hcs⟩ : ∃ cs, ArrayText values cs := by
    cases values with
    | nil => exact ⟨_, .empty blanks_nil⟩
    | cons n values =>
      obtain ⟨cs, hcs⟩ := exists_elements n values
      exact ⟨_, .elements hcs⟩
  exact ⟨String.ofList cs, by rw [String.toList_ofList]; exact .of_core hcs⟩

end DirtyRegion.Json
