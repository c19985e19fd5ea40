import Mathlib.Data.Nat.Notation
import DirtyRegion.Json.Text
import DirtyRegion.Proofs.Grammar

/-!
# Spellings — strings as they are read

The readers of what stands between two quotes are held against the grammar, each in both
directions: what is read has been written as the grammar says, and what is written so is read,
whatever stands behind it.

Main statements: `spelled?_append`, `exists_spelling_of_spelled?` for one character and
`readText_eq_some_iff` for a string.
-/

namespace DirtyRegion.Json

variable {w cs ds hs ls rest text : List Char} {c : Char} {high low : ℕ}

/-! ### Hexadecimal digits -/

theorem hexValue?_lower : ∀ n < 16,
    "0123456789abcdef".toList[n]?.bind hexValue? = some n := by decide

theorem hexValue?_upper : ∀ n < 16,
    "0123456789ABCDEF".toList[n]?.bind hexValue? = some n := by decide

theorem lower_of_decimal : ∀ n < 10,
    "0123456789abcdef".toList[n]? = some (Char.ofNat (n + '0'.toNat)) := by decide

theorem lower_of_letter : ∀ n < 6,
    "0123456789abcdef".toList[n + 10]? = some (Char.ofNat (n + 'a'.toNat)) := by decide

theorem upper_of_letter : ∀ n < 6,
    "0123456789ABCDEF".toList[n + 10]? = some (Char.ofNat (n + 'A'.toNat)) := by decide

theorem HexDigit.lt {n : ℕ} (h : HexDigit c n) : n < 16 :=
  h.elim (fun h => (List.getElem?_eq_some_iff.mp h).1) fun h => (List.getElem?_eq_some_iff.mp h).1

theorem HexDigit.value {n : ℕ} (h : HexDigit c n) : hexValue? c = some n := by
  have hn := h.lt
  rcases h with h | h
  · have hvalue := hexValue?_lower n hn
    rwa [h] at hvalue
  · have hvalue := hexValue?_upper n hn
    rwa [h] at hvalue

/-- A character between two others, counted from the first of them. -/
theorem eq_ofNat_of_between {a z c : Char} (h : a ≤ c ∧ c ≤ z) :
    c.toNat - a.toNat < z.toNat - a.toNat + 1 ∧ c = Char.ofNat (c.toNat - a.toNat + a.toNat) := by
  have ha : a.toNat ≤ c.toNat := h.1
  have hz : c.toNat ≤ z.toNat := h.2
  refine ⟨by omega, ?_⟩
  rw [Nat.sub_add_cancel ha, Char.ofNat_toNat]

theorem hexDigit_of_value {n : ℕ} (h : hexValue? c = some n) : HexDigit c n := by
  unfold hexValue? at h
  split at h
  · rename_i hc
    obtain ⟨hn, he⟩ := eq_ofNat_of_between hc
    cases h
    rw [HexDigit, lower_of_decimal _ hn, ← he]
    exact .inl rfl
  split at h
  · rename_i hc
    obtain ⟨hn, he⟩ := eq_ofNat_of_between hc
    cases h
    rw [HexDigit, lower_of_letter _ hn, ← he]
    exact .inl rfl
  split at h
  · rename_i hc
    obtain ⟨hn, he⟩ := eq_ofNat_of_between hc
    cases h
    rw [HexDigit, upper_of_letter _ hn, ← he]
    exact .inr rfl
  · cases h

theorem hexValue?_eq_some_iff {n : ℕ} : hexValue? c = some n ↔ HexDigit c n :=
  ⟨hexDigit_of_value, HexDigit.value⟩

theorem HexGroup.lt {n : ℕ} (h : HexGroup ds n) : n < 0x10000 := by
  obtain ⟨ha, hb, hc, hd⟩ := h
  have := ha.lt
  have := hb.lt
  have := hc.lt
  have := hd.lt
  omega

theorem hexGroup?_eq_some_iff {n : ℕ} :
    hexGroup? cs = some (n, rest) ↔ ∃ ds, HexGroup ds n ∧ cs = ds ++ rest := by
  constructor
  · intro h
    unfold hexGroup? at h
    split at h
    · rename_i a b c d cs'
      simp only [Option.bind_eq_bind, Option.bind_eq_some_iff, hexValue?_eq_some_iff,
        Option.some.injEq, Prod.mk.injEq] at h
      obtain ⟨i, ha, j, hb, k, hc, l, hd, rfl, rfl⟩ := h
      exact ⟨[a, b, c, d], .mk ha hb hc hd, rfl⟩
    · cases h
  · rintro ⟨ds, ⟨ha, hb, hc, hd⟩, rfl⟩
    rw [← hexValue?_eq_some_iff] at ha hb hc hd
    simp [hexGroup?, ha, hb, hc, hd]

theorem HexGroup.read {n : ℕ} (h : HexGroup ds n) (rest : List Char) :
    hexGroup? (ds ++ rest) = some (n, rest) :=
  hexGroup?_eq_some_iff.mpr ⟨ds, h, rfl⟩

/-! ### Characters inside of quotes -/

theorem toNat_ofNat_of_valid {n : ℕ} (h : n < 0xd800 ∨ 0xdfff < n ∧ n < 0x110000) :
    (Char.ofNat n).toNat = n := by
  have hvalid : n.isValidChar := h
  rw [Char.ofNat, dif_pos hvalid]
  rfl

theorem toNat_not_surrogate (c : Char) : c.toNat < 0xd800 ∨ 0xdfff < c.toNat :=
  c.valid.imp id And.left

theorem hexSpelled?_of_group (h : HexGroup ds c.toNat) (rest : List Char) :
    hexSpelled? (ds ++ rest) = some (c, rest) := by
  have hc := toNat_not_surrogate c
  rw [hexSpelled?, h.read, Option.bind_eq_bind, Option.bind_some]
  dsimp only
  rw [if_neg (by omega), if_neg (by omega), Char.ofNat_toNat]

theorem hexSpelled?_of_surrogates (hhs : HexGroup hs high) (hls : HexGroup ls low)
    (hhigh : 0xd800 ≤ high ∧ high ≤ 0xdbff) (hlow : 0xdc00 ≤ low ∧ low ≤ 0xdfff)
    (hc : c.toNat = 0x10000 + (high - 0xd800) * 0x400 + (low - 0xdc00)) (rest : List Char) :
    hexSpelled? (hs ++ '\\' :: 'u' :: (ls ++ rest)) = some (c, rest) := by
  rw [hexSpelled?, hhs.read, Option.bind_eq_bind, Option.bind_some]
  dsimp only
  rw [if_neg (by omega), if_pos hhigh]
  simp only [hls.read, Option.bind_some]
  rw [if_pos hlow, ← hc, Char.ofNat_toNat]

theorem exists_spelling_of_hexSpelled? (h : hexSpelled? cs = some (c, rest)) :
    ∃ w, Spelling ('\\' :: 'u' :: w) c ∧ cs = w ++ rest := by
  simp only [hexSpelled?, Option.bind_eq_bind, Option.bind_eq_some_iff] at h
  obtain ⟨⟨high, rest₁⟩, hgroup, h⟩ := h
  obtain ⟨hs, hhs, rfl⟩ := hexGroup?_eq_some_iff.mp hgroup
  have hlt := hhs.lt
  -- The second half of a pair never comes first, and the first half needs a second one behind it.
  split at h
  · cases h
  rename_i hlow
  split at h
  · rename_i hhigh
    split at h
    · rename_i rest₂ hrest
      obtain ⟨⟨low, rest₃⟩, hgroup', hpair⟩ := Option.bind_eq_some_iff.mp h
      obtain ⟨ls, hls, rfl⟩ := hexGroup?_eq_some_iff.mp hgroup'
      dsimp only at hpair hrest hhigh
      split at hpair
      · rename_i hlow
        simp only [Option.some.injEq, Prod.mk.injEq] at hpair
        obtain ⟨rfl, rfl⟩ := hpair
        have hc : (Char.ofNat (0x10000 + (high - 0xd800) * 0x400 + (low - 0xdc00))).toNat = _ :=
          toNat_ofNat_of_valid (by omega)
        exact ⟨_, .surrogates hhs hls hhigh hlow hc, by simp [hrest]⟩
      · cases hpair
    · cases h
  · rename_i hhigh
    cases h
    have hc : (Char.ofNat high).toNat = high := toNat_ofNat_of_valid (by omega)
    exact ⟨hs, .hex (hc.symm ▸ hhs), rfl⟩

theorem letterSpelled?_eq_some_iff {l : Char} : letterSpelled? l = some c ↔ (l, c) ∈ letters := by
  constructor
  · intro h
    unfold letterSpelled? at h
    split at h <;> cases h <;> decide
  · intro h
    simp only [letters, List.mem_cons, List.not_mem_nil, or_false, Prod.mk.injEq] at h
    rcases h with ⟨rfl, rfl⟩ | ⟨rfl, rfl⟩ | ⟨rfl, rfl⟩ | ⟨rfl, rfl⟩ | ⟨rfl, rfl⟩ | ⟨rfl, rfl⟩ |
      ⟨rfl, rfl⟩ | ⟨rfl, rfl⟩ <;> rfl

theorem spelled?_append (h : Spelling w c) (rest : List Char) :
    spelled? (w ++ rest) = some (c, rest) := by
  cases h with
  | plain hquote hbackslash hcontrol =>
    rw [List.singleton_append]
    unfold spelled?
    split
    · rename_i heq
      cases heq
    · rename_i heq
      cases heq
      exact absurd rfl hbackslash
    · rename_i heq
      cases heq
      exact absurd rfl hbackslash
    · rename_i heq
      cases heq
      rw [if_neg (by simp [hbackslash]; omega)]
  | letter h =>
    have hl := letterSpelled?_eq_some_iff.mpr h
    simp only [List.cons_append, List.nil_append]
    unfold spelled?
    split
    · rename_i heq
      cases heq
    · rename_i heq
      cases heq
      cases hl
    · rename_i heq
      cases heq
      rw [hl, Option.map_some]
    · rename_i hno heq
      cases heq
      exact absurd rfl (hno _ _ rfl)
  | hex h => exact hexSpelled?_of_group h rest
  | surrogates hhs hls hhigh hlow hc =>
    have h := hexSpelled?_of_surrogates hhs hls hhigh hlow hc rest
    simpa [spelled?] using h

theorem exists_spelling_of_spelled? (hq : cs.head? ≠ some '"')
    (h : spelled? cs = some (c, rest)) : ∃ w, Spelling w c ∧ cs = w ++ rest := by
  unfold spelled? at h
  split at h
  · cases h
  · obtain ⟨w, hw, rfl⟩ := exists_spelling_of_hexSpelled? h
    exact ⟨_, hw, rfl⟩
  · rename_i l cs' _
    obtain ⟨d, hd, he⟩ := Option.map_eq_some_iff.mp h
    cases he
    exact ⟨['\\', l], .letter (letterSpelled?_eq_some_iff.mp hd), rfl⟩
  · rename_i d cs' _ _
    split at h
    · cases h
    · rename_i hplain
      cases h
      simp only [Bool.or_eq_true, beq_iff_eq, decide_eq_true_eq, not_or, Nat.not_lt] at hplain
      have hquote : c ≠ '"' := fun he => hq (congrArg some he)
      exact ⟨[c], .plain hquote hplain.1 hplain.2, rfl⟩

/-! ### Strings -/

theorem Spelling.head?_ne_quote (h : Spelling w c) (rest : List Char) :
    (w ++ rest).head? ≠ some '"' := by
  cases h with
  | plain hquote _ _ => exact fun he => hquote (Option.some.inj he)
  | letter _ => exact nofun
  | hex _ => exact nofun
  | surrogates _ _ _ _ _ => exact nofun

theorem readText_append (h : Spells w text) (rest : List Char) :
    readText (w ++ '"' :: rest) = some (text, rest) := by
  induction h with
  | nil => exact readText_quote rest
  | cons h hs ih =>
    rw [List.append_assoc, readText_of_spelled (h.head?_ne_quote _) (spelled?_append h _), ih,
      Option.map_some]

theorem exists_spells_of_readText (h : readText cs = some (text, rest)) :
    ∃ w, Spells w text ∧ cs = w ++ '"' :: rest := by
  fun_induction readText cs generalizing text rest with
  | case1 rest' =>
    cases h
    exact ⟨[], .nil, rfl⟩
  | case2 cs hq hnone => cases h
  | case3 cs hq c cs' hsome ih =>
    obtain ⟨⟨text', rest'⟩, hread, he⟩ := Option.map_eq_some_iff.mp h
    cases he
    have hhead : cs.head? ≠ some '"' := by
      intro hcs
      obtain ⟨tail, rfl⟩ := List.head?_eq_some_iff.mp hcs
      exact hq tail rfl
    obtain ⟨w, hw, rfl⟩ := exists_spelling_of_spelled? hhead hsome
    obtain ⟨ws, hws, rfl⟩ := ih hread
    exact ⟨w ++ ws, .cons hw hws, (List.append_assoc ..).symm⟩

/-- A string is read exactly if its characters up to the closing quote spell it. -/
theorem readText_eq_some_iff :
    readText cs = some (text, rest) ↔ ∃ w, Spells w text ∧ cs = w ++ '"' :: rest := by
  constructor
  · exact exists_spells_of_readText
  · rintro ⟨w, hw, rfl⟩
    exact readText_append hw rest

end DirtyRegion.Json
