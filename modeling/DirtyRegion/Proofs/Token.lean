import Mathlib.Data.Nat.Notation
import DirtyRegion.Json.Value
import DirtyRegion.Proofs.Grammar
import DirtyRegion.Proofs.Numeral

/-!
# Tokens — blanks and offsets as they are read

The readers of blanks and offsets are held against the grammar, each in both directions: what is
read has been written as the grammar says, and what is written so is read. A number has no closing
mark, so something has to be said of what stands behind it: `NumberStops`.

Main statements: `skipBlanks_eq_cons_iff`, `readOffset_eq_ok_iff`, and `readOffset_mark_iff` for an
offset with a mark behind it.
-/

namespace DirtyRegion.Json

variable {cs ds rest : List Char} {c : Char} {n : Offset}

/-! ### Blanks -/

theorem isBlank_eq_true_iff {c : Char} :
    isBlank c = true ↔ c = ' ' ∨ c = '\t' ∨ c = '\n' ∨ c = '\r' := by
  simp [isBlank, or_assoc]

theorem isBlank_of_isDigit (h : c.isDigit = true) : isBlank c = false := by
  rw [Bool.eq_false_iff]
  intro hc
  rcases isBlank_eq_true_iff.mp hc with rfl | rfl | rfl | rfl <;> cases h

theorem blanks_nil : Blanks [] := by
  rintro c ⟨⟩

theorem Blanks.append {ws ws' : List Char} (h : Blanks ws) (h' : Blanks ws') :
    Blanks (ws ++ ws') := by
  intro c hc
  rcases List.mem_append.mp hc with hc | hc
  · exact h c hc
  · exact h' c hc

/-- Blanks in front of a text do not count, up to the first character that is none. -/
theorem skipBlanks_blanks {ws cs : List Char} (h : Blanks ws)
    (hcs : ∀ c ∈ cs.head?, isBlank c = false) : skipBlanks (ws ++ cs) = cs := by
  rw [skipBlanks_append fun c hc => isBlank_eq_true_iff.mpr (h c hc)]
  cases cs with
  | nil => rfl
  | cons c cs => exact skipBlanks_cons_of_not_isBlank (hcs c rfl) cs

theorem exists_blanks (cs : List Char) : ∃ ws, Blanks ws ∧ cs = ws ++ skipBlanks cs := by
  refine ⟨cs.takeWhile isBlank, ?_, List.takeWhile_append_dropWhile.symm⟩
  intro c hc
  exact isBlank_eq_true_iff.mp (List.all_eq_true.mp List.all_takeWhile c hc)

theorem skipBlanks_eq_cons_iff {p : Char} (hp : isBlank p = false) {cs rest : List Char} :
    skipBlanks cs = p :: rest ↔ ∃ ws, Blanks ws ∧ cs = ws ++ p :: rest := by
  constructor
  · intro h
    obtain ⟨ws, hws, hcs⟩ := exists_blanks cs
    exact ⟨ws, hws, h ▸ hcs⟩
  · rintro ⟨ws, hws, rfl⟩
    exact skipBlanks_blanks hws (by rintro c ⟨⟩; exact hp)

theorem skipBlanks_eq_nil_iff {cs : List Char} : skipBlanks cs = [] ↔ Blanks cs := by
  constructor
  · intro h
    obtain ⟨ws, hws, hcs⟩ := exists_blanks cs
    rwa [hcs, h, List.append_nil]
  · intro h
    have hskip := skipBlanks_blanks h (nofun : ∀ c ∈ ([] : List Char).head?, isBlank c = false)
    rwa [List.append_nil] at hskip

theorem skipBlanks_skipBlanks (cs : List Char) : skipBlanks (skipBlanks cs) = skipBlanks cs := by
  obtain ⟨ws, hws, hcs⟩ := exists_blanks cs
  conv => rhs; rw [hcs]
  rw [skipBlanks_append fun c hc => isBlank_eq_true_iff.mpr (hws c hc)]

/-- No blanks stand in front of a character that is none. -/
theorem Blanks.eq_nil {ws : List Char} (h : Blanks ws) (hc : isBlank c = false)
    (he : c :: cs = ws ++ rest) : ws = [] := by
  cases ws with
  | nil => rfl
  | cons b ws =>
    cases he
    rw [isBlank_eq_true_iff.mpr (h c (List.mem_cons_self ..))] at hc
    cases hc

theorem Padded.of_core {P : List Char → Prop} (h : P cs) : Padded P cs := by
  have hpadded := Padded.mk blanks_nil h blanks_nil
  rwa [List.nil_append, List.append_nil] at hpadded

theorem Padded.blanks_append {P : List Char → Prop} {ws : List Char} (hws : Blanks ws)
    (h : Padded P cs) : Padded P (ws ++ cs) := by
  obtain ⟨hfront, hcore, hback⟩ := h
  rw [← List.append_assoc]
  exact .mk (hws.append hfront) hcore hback

/-! ### Numbers -/

/-- An offset begins with a digit. -/
theorem OffsetLiteral.exists_cons (h : OffsetLiteral n ds) :
    ∃ d ds', ds = d :: ds' ∧ d.isDigit = true := by
  obtain ⟨d, ds', rfl⟩ := List.exists_cons_of_ne_nil h.ne_nil
  exact ⟨d, ds', rfl, h.digits d (List.mem_cons_self ..)⟩

/-- No number goes on with this text. -/
def NumberStops (cs : List Char) : Prop :=
  ∀ c ∈ cs.head?, c.isDigit = false ∧ c ≠ '.' ∧ c ≠ 'e' ∧ c ≠ 'E'

theorem NumberStops.noDigit (h : NumberStops cs) : NoDigit cs :=
  fun c hc => (h c hc).1

theorem readWhole_eq_some_iff :
    readWhole cs = some (ds, rest) ↔
      readDigits cs = some (ds, rest) ∧ (ds.head? = some '0' → ds = ['0']) := by
  unfold readWhole
  split
  · rename_i d ds' rest' heq
    rw [heq]
    constructor
    · exact nofun
    · rintro ⟨he, hz⟩
      cases he
      cases hz rfl
  · rename_i hno
    refine ⟨fun h => ⟨h, fun hz => ?_⟩, And.left⟩
    obtain ⟨tail, rfl⟩ := List.head?_eq_some_iff.mp hz
    cases tail with
    | nil => rfl
    | cons d tail => exact absurd h (hno d tail rest)

theorem readFraction_eq_some_none_iff :
    readFraction cs = some (none, rest) ↔ rest = cs ∧ cs.head? ≠ some '.' := by
  unfold readFraction
  split
  · simp
  · rename_i hno
    constructor
    · intro h
      cases h
      refine ⟨rfl, fun hdot => ?_⟩
      obtain ⟨tail, rfl⟩ := List.head?_eq_some_iff.mp hdot
      exact hno tail rfl
    · rintro ⟨rfl, -⟩
      rfl

theorem readExponent_eq_some_none_iff :
    readExponent cs = some (none, rest) ↔
      rest = cs ∧ cs.head? ≠ some 'e' ∧ cs.head? ≠ some 'E' := by
  cases cs with
  | nil => simp [readExponent, eq_comm]
  | cons c cs =>
    by_cases hc : (c == 'e' || c == 'E') = true
    · rw [readExponent, if_pos hc]
      rw [Bool.or_eq_true, beq_iff_eq, beq_iff_eq] at hc
      rcases hc with rfl | rfl <;> simp
    · rw [readExponent, if_neg hc]
      rw [Bool.or_eq_true, beq_iff_eq, beq_iff_eq, not_or] at hc
      simp [hc, eq_comm]

theorem readUnsigned_eq_some_iff {negative : Bool} {l : Numeral} :
    readUnsigned negative cs = some (l, rest) ↔
      l.negative = negative ∧ ∃ cs₁ cs₂, readWhole cs = some (l.whole, cs₁) ∧
        readFraction cs₁ = some (l.fraction, cs₂) ∧ readExponent cs₂ = some (l.exponent, rest) := by
  simp only [readUnsigned, Option.bind_eq_bind, Option.bind_eq_some_iff, Prod.exists,
    Option.some.injEq, Prod.mk.injEq]
  constructor
  · rintro ⟨whole, cs₁, hwhole, fraction, cs₂, hfraction, exponent, rest, hexponent, rfl, rfl⟩
    exact ⟨rfl, cs₁, cs₂, hwhole, hfraction, hexponent⟩
  · rintro ⟨rfl, cs₁, cs₂, hwhole, hfraction, hexponent⟩
    exact ⟨_, cs₁, hwhole, _, cs₂, hfraction, _, rest, hexponent, rfl, rfl⟩

/-- A literal is an offset exactly if it has neither sign nor fraction nor exponent and a word
holds it. -/
theorem value?_eq_some_natural_iff {l : Numeral} :
    l.value? = some (.natural n) ↔
      l.negative = false ∧ l.fraction = none ∧ l.exponent = none ∧
        digitsValue l.whole = n.toNat := by
  have hinteger : l.value? = some (.natural n) ↔ l.integer? = some (.natural n) := by
    unfold Numeral.value?
    split
    · rename_i m hm
      rw [hm]
    · rename_i hm
      rw [hm]
      simp
  rw [hinteger, Numeral.integer?]
  obtain ⟨negative, whole, fraction, exponent⟩ := l
  cases fraction with
  | some ds => simp
  | none =>
    cases exponent with
    | some e => simp
    | none =>
      cases negative with
      | true => simp [Option.bind_eq_some_iff]
      | false =>
        have hsmall : digitsValue whole = n.toNat → n.toNat < offsetCount :=
          fun _ => n.toNat_lt_count
        simpa [Option.bind_eq_some_iff, wordValue?_eq_some_iff, Offset.ofNat?_eq_some_iff] using
          hsmall

/-- An offset is read as far as its digits go. -/
theorem readNumber_append (hds : OffsetLiteral n ds) (hrest : NumberStops rest) :
    readNumber (ds ++ rest) = some (.natural n, rest) := by
  have hwhole : readWhole (ds ++ rest) = some (ds, rest) :=
    readWhole_eq_some_iff.mpr
      ⟨readDigits_append hds.ne_nil hds.digits hrest.noDigit, hds.no_leading_zero⟩
  have hfraction : readFraction rest = some (none, rest) :=
    readFraction_eq_some_none_iff.mpr ⟨rfl, fun h => (hrest _ h).2.1 rfl⟩
  have hexponent : readExponent rest = some (none, rest) :=
    readExponent_eq_some_none_iff.mpr
      ⟨rfl, fun h => (hrest _ h).2.2.1 rfl, fun h => (hrest _ h).2.2.2 rfl⟩
  have hnumeral : readNumeral (ds ++ rest) = some (⟨false, ds, none, none⟩, rest) := by
    unfold readNumeral
    split
    · rename_i tail heq
      obtain ⟨d, ds', rfl, hd⟩ := hds.exists_cons
      cases heq
      cases hd
    · exact readUnsigned_eq_some_iff.mpr ⟨rfl, rest, rest, hwhole, hfraction, hexponent⟩
  have hvalue : Numeral.value? ⟨false, ds, none, none⟩ = some (.natural n) :=
    value?_eq_some_natural_iff.mpr ⟨rfl, rfl, rfl, (digitsValue_eq ds).trans hds.value⟩
  simp only [readNumber, Option.bind_eq_bind, hnumeral, hvalue, Option.bind_some]

theorem exists_literal_of_readNumber (h : readNumber cs = some (.natural n, rest)) :
    ∃ ds, OffsetLiteral n ds ∧ NumberStops rest ∧ cs = ds ++ rest := by
  simp only [readNumber, Option.bind_eq_bind, Option.bind_eq_some_iff, Prod.exists,
    Option.some.injEq, Prod.mk.injEq] at h
  obtain ⟨l, rest, hl, m, hm, rfl, rfl⟩ := h
  obtain ⟨hneg, hfrac, hexp, hvalue⟩ := value?_eq_some_natural_iff.mp hm
  unfold readNumeral at hl
  split at hl
  · obtain ⟨htrue, -⟩ := readUnsigned_eq_some_iff.mp hl
    rw [hneg] at htrue
    cases htrue
  · obtain ⟨-, cs₁, cs₂, hwhole, hfraction, hexponent⟩ := readUnsigned_eq_some_iff.mp hl
    rw [hfrac] at hfraction
    rw [hexp] at hexponent
    obtain ⟨rfl, hdot⟩ := readFraction_eq_some_none_iff.mp hfraction
    obtain ⟨rfl, he, hE⟩ := readExponent_eq_some_none_iff.mp hexponent
    obtain ⟨hdigits, hzero⟩ := readWhole_eq_some_iff.mp hwhole
    obtain ⟨rfl, hne, hall, hstop⟩ := readDigits_eq_some_iff.mp hdigits
    rw [digitsValue_eq] at hvalue
    -- That no digit, fraction or exponent was read says what the rest does not begin with.
    refine ⟨l.whole, ⟨hne, hall, hzero, hvalue⟩, fun c hc => ⟨hstop c hc, ?_, ?_, ?_⟩, rfl⟩
    · rintro rfl
      exact hdot hc
    · rintro rfl
      exact he hc
    · rintro rfl
      exact hE hc

theorem readScalar_append (hds : OffsetLiteral n ds) (hrest : NumberStops rest) :
    readScalar (ds ++ rest) = some (.natural n, rest) := by
  have hnumber := readNumber_append hds hrest
  obtain ⟨d, ds', rfl, hd⟩ := hds.exists_cons
  unfold readScalar
  -- A digit is none of the characters that open the other scalars.
  split
  · rename_i heq
    cases heq
    cases hd
  · rename_i heq
    cases heq
    cases hd
  · rename_i heq
    cases heq
    cases hd
  · rename_i heq
    cases heq
    cases hd
  · rw [hnumber]
    rfl

theorem readName_ne_natural {name : String} {found : Found} (h : found ≠ .natural n) :
    readName name found cs ≠ some (.natural n, rest) := by
  unfold readName
  split
  · intro he
    cases he
    exact h rfl
  · exact nofun

theorem exists_literal_of_readScalar (h : readScalar cs = some (.natural n, rest)) :
    ∃ ds, OffsetLiteral n ds ∧ NumberStops rest ∧ cs = ds ++ rest := by
  unfold readScalar at h
  split at h
  · exact absurd h (readName_ne_natural nofun)
  · exact absurd h (readName_ne_natural nofun)
  · exact absurd h (readName_ne_natural nofun)
  · obtain ⟨r, -, he⟩ := Option.map_eq_some_iff.mp h
    cases he
  · obtain ⟨⟨m, rest'⟩, hm, he⟩ := Option.map_eq_some_iff.mp h
    cases m <;> cases he
    exact exists_literal_of_readNumber hm

theorem offset_eq_ok_iff {found : Found} : found.offset = .ok n ↔ found = .natural n := by
  cases found <;> simp [Found.offset]

theorem map_offset_eq_ok_iff {found : Found} {cs' : List Char} :
    found.offset.map (·, cs') = .ok (n, rest) ↔ found = .natural n ∧ cs' = rest := by
  rw [← offset_eq_ok_iff]
  cases found.offset <;> simp [Except.map]

theorem readOffset_append {ws : List Char} (hws : Blanks ws) (hds : OffsetLiteral n ds)
    (hrest : NumberStops rest) : readOffset (ws ++ (ds ++ rest)) = .ok (n, rest) := by
  have hscalar := readScalar_append hds hrest
  obtain ⟨d, ds', rfl, hd⟩ := hds.exists_cons
  have hskip : skipBlanks (ws ++ (d :: ds' ++ rest)) = d :: ds' ++ rest :=
    skipBlanks_blanks hws (by rintro c ⟨⟩; exact isBlank_of_isDigit hd)
  unfold readOffset
  rw [hskip]
  split
  · rename_i heq
    cases heq
    cases hd
  · rename_i heq
    cases heq
    cases hd
  · rw [hscalar]
    rfl

/-- An offset is read exactly if there is one after blanks, and no number goes on after it. -/
theorem readOffset_eq_ok_iff :
    readOffset cs = .ok (n, rest) ↔
      ∃ ws ds, Blanks ws ∧ OffsetLiteral n ds ∧ NumberStops rest ∧ cs = ws ++ (ds ++ rest) := by
  constructor
  · intro h
    obtain ⟨ws, hws, hcs⟩ := exists_blanks cs
    unfold readOffset at h
    split at h
    · cases h
    · cases h
    · split at h
      · cases h
      · rename_i found rest' hscalar
        obtain ⟨rfl, rfl⟩ := map_offset_eq_ok_iff.mp h
        obtain ⟨ds, hds, hrest, he⟩ := exists_literal_of_readScalar hscalar
        exact ⟨ws, ds, hws, hds, hrest, he ▸ hcs⟩
  · rintro ⟨ws, ds, hws, hds, hrest, rfl⟩
    exact readOffset_append hws hds hrest

/-! ### Marks -/

/-- The characters that stand behind a value. -/
def isMark (p : Char) : Bool :=
  p == ',' || p == ']' || p == '\x7d'

theorem isMark_eq_true_iff {p : Char} : isMark p = true ↔ p = ',' ∨ p = ']' ∨ p = '\x7d' := by
  simp [isMark, or_assoc]

theorem isBlank_of_isMark {p : Char} (h : isMark p = true) : isBlank p = false := by
  rcases isMark_eq_true_iff.mp h with rfl | rfl | rfl <;> decide

/-- A number stops where a mark is the next character that is no blank. -/
theorem numberStops_of_isMark {p : Char} {ws : List Char} (hws : Blanks ws) (hp : isMark p = true)
    (rest : List Char) : NumberStops (ws ++ p :: rest) := by
  cases ws with
  | nil =>
    rintro c ⟨⟩
    rcases isMark_eq_true_iff.mp hp with rfl | rfl | rfl <;> decide
  | cons b ws =>
    rintro c ⟨⟩
    rcases hws b (List.mem_cons_self ..) with rfl | rfl | rfl | rfl <;> decide

/-- An offset and the mark behind it are read exactly if an offset stands before the mark. -/
theorem readOffset_mark_iff {p : Char} (hp : isMark p = true) :
    (∃ cs', readOffset cs = .ok (n, cs') ∧ skipBlanks cs' = p :: rest) ↔
      ∃ a, Padded (OffsetLiteral n) a ∧ cs = a ++ p :: rest := by
  have hblank := isBlank_of_isMark hp
  constructor
  · rintro ⟨cs', hread, hskip⟩
    obtain ⟨ws, ds, hws, hds, -, rfl⟩ := readOffset_eq_ok_iff.mp hread
    obtain ⟨ws', hws', rfl⟩ := (skipBlanks_eq_cons_iff hblank).mp hskip
    exact ⟨_, .mk hws hds hws', by simp⟩
  · rintro ⟨-, ⟨hws, hds, hws'⟩, rfl⟩
    rename_i ws ds ws'
    refine ⟨ws' ++ p :: rest, ?_, ?_⟩
    · have hread := readOffset_append hws hds (numberStops_of_isMark hws' hp rest)
      simpa using hread
    · exact (skipBlanks_eq_cons_iff hblank).mpr ⟨ws', hws', rfl⟩

end DirtyRegion.Json
