import DirtyRegion.Json.Number

/-!
# Numerals — digits at the front of a text

Digits are read as far as they go, so that a number at the front of a text is read as it was written
only where no digit follows. `NoDigit` says that of what follows.

Main statements: `readDigits_eq_some_iff` (what is read, and when) and `digitsValue_repr` (the
numeral of a number spells it).
-/

namespace DirtyRegion.Json

/-- The text does not begin with a digit. -/
def NoDigit (cs : List Char) : Prop :=
  ∀ c ∈ cs.head?, c.isDigit = false

theorem noDigit_nil : NoDigit [] := by
  rintro c ⟨⟩

theorem noDigit_cons {c : Char} (h : c.isDigit = false) (cs : List Char) : NoDigit (c :: cs) := by
  rintro d ⟨⟩
  exact h

theorem noDigit_dropWhile (cs : List Char) : NoDigit (cs.dropWhile Char.isDigit) := by
  intro c hc
  have h := List.head?_dropWhile_not Char.isDigit cs
  rw [Option.mem_def.mp hc] at h
  exact h

/-- Nothing is taken off a text that does not begin with what is looked for. -/
theorem takeWhile_of_head? {p : Char → Bool} {cs : List Char} (h : ∀ c ∈ cs.head?, p c = false) :
    cs.takeWhile p = [] ∧ cs.dropWhile p = cs := by
  cases cs with
  | nil => exact ⟨rfl, rfl⟩
  | cons c cs =>
    have hc : p c = false := h c rfl
    simp [hc]

theorem takeWhile_append_of_head? {p : Char → Bool} {ds rest : List Char}
    (hds : ∀ d ∈ ds, p d = true) (hrest : ∀ c ∈ rest.head?, p c = false) :
    (ds ++ rest).takeWhile p = ds ∧ (ds ++ rest).dropWhile p = rest := by
  obtain ⟨htake, hdrop⟩ := takeWhile_of_head? hrest
  rw [List.takeWhile_append_of_pos hds, List.dropWhile_append_of_pos hds, htake, hdrop,
    List.append_nil]
  exact ⟨rfl, rfl⟩

theorem readDigits_append {ds rest : List Char} (hne : ds ≠ []) (hds : ∀ d ∈ ds, d.isDigit = true)
    (hrest : NoDigit rest) : readDigits (ds ++ rest) = some (ds, rest) := by
  obtain ⟨htake, hdrop⟩ := takeWhile_append_of_head? hds hrest
  unfold readDigits
  rw [htake, hdrop]
  split
  · exact absurd rfl hne
  · rfl

theorem readDigits_eq_some_iff {cs ds rest : List Char} :
    readDigits cs = some (ds, rest) ↔
      cs = ds ++ rest ∧ ds ≠ [] ∧ (∀ d ∈ ds, d.isDigit = true) ∧ NoDigit rest := by
  constructor
  · intro h
    unfold readDigits at h
    split at h
    · cases h
    · rename_i hne
      cases h
      exact ⟨List.takeWhile_append_dropWhile.symm, hne, List.all_eq_true.mp List.all_takeWhile,
        noDigit_dropWhile cs⟩
  · rintro ⟨rfl, hne, hds, hrest⟩
    exact readDigits_append hne hds hrest

theorem digitsValue_eq (ds : List Char) : digitsValue ds = Nat.ofDigitChars 10 ds 0 :=
  Nat.ofDigitChars_eq_foldl.symm

/-- The numeral of a number spells it. -/
theorem digitsValue_repr (n : Nat) : digitsValue n.repr.toList = n := by
  rw [digitsValue_eq, Nat.toList_repr, Nat.ofDigitChars_ten_toDigits]

theorem isDigit_of_mem_repr {n : Nat} {d : Char} (h : d ∈ n.repr.toList) : d.isDigit = true := by
  rw [Nat.toList_repr] at h
  exact Nat.isDigit_of_mem_toDigits (by decide) (by decide) h

theorem repr_ne_nil (n : Nat) : n.repr.toList ≠ [] := by
  rw [Nat.toList_repr]
  exact Nat.toDigits_ne_nil

/-- Only the numeral of zero begins with a zero. -/
theorem eq_zero_of_head?_repr {n : Nat} (h : n.repr.toList.head? = some '0') : n = 0 := by
  induction n using Nat.strongRecOn with
  | ind n ih =>
    rw [Nat.toList_repr] at h
    rcases Nat.lt_or_ge n 10 with hlt | hge
    · rw [Nat.toDigits_of_lt_base hlt, List.head?_singleton, Option.some.injEq] at h
      exact Nat.digitChar_eq_zero.mp h
    · obtain ⟨d, ds, hds⟩ := List.exists_cons_of_ne_nil (repr_ne_nil (n / 10))
      rw [Nat.toDigits_of_base_le (by decide) hge, ← Nat.toList_repr, hds] at h
      -- The first digit is that of a tenth of the number, which would be zero as well.
      have hzero := ih (n / 10) (by omega) (by rwa [hds])
      omega

theorem readDigits_repr_append (n : Nat) {rest : List Char} (h : NoDigit rest) :
    readDigits (n.repr.toList ++ rest) = some (n.repr.toList, rest) :=
  readDigits_append (repr_ne_nil n) (fun _ hd => isDigit_of_mem_repr hd) h

end DirtyRegion.Json
