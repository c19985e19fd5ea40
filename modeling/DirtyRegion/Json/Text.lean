/-!
# JSON strings — characters and their spellings

Inside its quotes a JSON string holds one spelling after another: a character that stands for
itself, a backslash with a letter, or a backslash with `u` and four hexadecimal digits. A character
past the first 65536 takes two such groups, a high and a low surrogate; a surrogate on its own
spells nothing.

- `spelled?` reads one spelling, `readText` all of them up to the closing quote.
- `spelled?_length_lt` says that a spelling uses up characters, which bounds the reading.
-/

namespace DirtyRegion.Json

/-- The value of a hexadecimal digit, in either case. -/
def hexValue? (c : Char) : Option Nat :=
  if '0' ≤ c ∧ c ≤ '9' then some (c.toNat - '0'.toNat)
  else if 'a' ≤ c ∧ c ≤ 'f' then some (c.toNat - 'a'.toNat + 10)
  else if 'A' ≤ c ∧ c ≤ 'F' then some (c.toNat - 'A'.toNat + 10)
  else none

/-- The value of four hexadecimal digits at the front. -/
def hexGroup? : List Char → Option (Nat × List Char)
  | a :: b :: c :: d :: rest => do
    let a ← hexValue? a
    let b ← hexValue? b
    let c ← hexValue? c
    let d ← hexValue? d
    some (((a * 16 + b) * 16 + c) * 16 + d, rest)
  | _ => none

/-- The character spelled by hexadecimal digits, after the backslash and the `u`. -/
def hexSpelled? (cs : List Char) : Option (Char × List Char) := do
  let (high, rest) ← hexGroup? cs
  if 0xdc00 ≤ high ∧ high ≤ 0xdfff then none
  else if 0xd800 ≤ high ∧ high ≤ 0xdbff then
    match rest with
    | '\\' :: 'u' :: rest =>
      let (low, rest) ← hexGroup? rest
      if 0xdc00 ≤ low ∧ low ≤ 0xdfff then
        some (Char.ofNat (0x10000 + (high - 0xd800) * 0x400 + (low - 0xdc00)), rest)
      else none
    | _ => none
  else some (Char.ofNat high, rest)

/-- The character that a letter stands for after a backslash. -/
def letterSpelled? (c : Char) : Option Char :=
  match c with
  | '"' => some '"'
  | '\\' => some '\\'
  | '/' => some '/'
  | 'b' => some '\x08'
  | 'f' => some '\x0c'
  | 'n' => some '\n'
  | 'r' => some '\r'
  | 't' => some '\t'
  | _ => none

/-- The character spelled at the front, inside a string. A control character does not stand for
itself. -/
def spelled? : List Char → Option (Char × List Char)
  | [] => none
  | '\\' :: 'u' :: rest => hexSpelled? rest
  | '\\' :: c :: rest => (letterSpelled? c).map (·, rest)
  | c :: rest => if c == '\\' || c.toNat < 0x20 then none else some (c, rest)

/-! ### A spelling uses up characters -/

theorem hexGroup?_length_lt {cs rest : List Char} {n : Nat} (h : hexGroup? cs = some (n, rest)) :
    rest.length < cs.length := by
  unfold hexGroup? at h
  split at h
  · simp only [Option.bind_eq_bind, Option.bind_eq_some_iff, Option.some.injEq, Prod.mk.injEq] at h
    obtain ⟨_, _, _, _, _, _, _, _, _, rfl⟩ := h
    simp only [List.length_cons]
    omega
  · cases h

theorem hexSpelled?_length_lt {cs rest : List Char} {c : Char}
    (h : hexSpelled? cs = some (c, rest)) : rest.length < cs.length := by
  simp only [hexSpelled?, Option.bind_eq_bind, Option.bind_eq_some_iff] at h
  obtain ⟨⟨high, rest₁⟩, h₁, h⟩ := h
  have lt₁ := hexGroup?_length_lt h₁
  simp only at h
  split at h
  · cases h
  split at h
  · split at h
    · rename_i rest₂
      simp only [Option.bind_eq_some_iff] at h
      obtain ⟨⟨low, rest₃⟩, h₂, h⟩ := h
      have lt₂ := hexGroup?_length_lt h₂
      simp only at h
      split at h
      · simp only [Option.some.injEq, Prod.mk.injEq] at h
        obtain ⟨-, rfl⟩ := h
        simp only [List.length_cons] at lt₁
        omega
      · simp at h
    · simp at h
  · simp only [Option.some.injEq, Prod.mk.injEq] at h
    obtain ⟨-, rfl⟩ := h
    exact lt₁

theorem spelled?_length_lt {cs rest : List Char} {c : Char} (h : spelled? cs = some (c, rest)) :
    rest.length < cs.length := by
  unfold spelled? at h
  split at h
  · cases h
  · have lt := hexSpelled?_length_lt h
    simp only [List.length_cons]
    omega
  · obtain ⟨d, -, e⟩ := Option.map_eq_some_iff.mp h
    cases e
    simp only [List.length_cons]
    omega
  · split at h
    · cases h
    · cases h
      simp

/-! ### Whole strings -/

/-- The characters up to the closing quote, and what follows the quote. -/
def readText (cs : List Char) : Option (List Char × List Char) :=
  match cs with
  | '"' :: rest => some ([], rest)
  | cs =>
    match _h : spelled? cs with
    | none => none
    | some (c, rest) => (readText rest).map fun p => (c :: p.1, p.2)
termination_by cs.length
decreasing_by exact spelled?_length_lt _h

theorem readText_quote (rest : List Char) : readText ('"' :: rest) = some ([], rest) := by
  rw [readText]

theorem readText_of_spelled {cs rest : List Char} {c : Char} (hq : cs.head? ≠ some '"')
    (h : spelled? cs = some (c, rest)) :
    readText cs = (readText rest).map fun p => (c :: p.1, p.2) := by
  rw [readText.eq_def]
  split
  · simp at hq
  · split
    · simp_all
    · simp_all

end DirtyRegion.Json
