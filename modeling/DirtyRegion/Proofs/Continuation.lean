import DirtyRegion.Proofs.Members

/-!
# Continuations — reading on where more text follows

A reader that has come to an end before the end of its text does not notice what is put behind that
text. Only a number at the very end may go on, since nothing closes it. `Joins` says that this does
not happen.

- `Joins` relates a text to another one that may be put behind it.
- `EndsInDigit` says of a text that a number may go on behind it.
- `Persists` says of a result that it is a fault, and a given one where the texts join.

Main statements: `readNumber_continue` and `readScalar_continue` (values are read as before),
`readOffset_continue` for an offset, and `readOffset_persists`: where no offset can stand, none can
come about by more text.
-/

namespace DirtyRegion.Json

variable {cs rest u : List Char} {c : Char} {n : Offset} {m : Mismatch}

section Defs

def EndsInDigit (cs : List Char) : Prop :=
  ∃ d ∈ cs.getLast?, d.isDigit = true

/-- No number runs on from the end of the first text into the second. -/
def Joins (cs u : List Char) : Prop :=
  ¬ EndsInDigit cs ∨ NumberStops u

/-- The result is a fault, and the given one if the condition holds. -/
def Persists {α : Type} (m : Mismatch) (sure : Prop) (r : Except Fault α) : Prop :=
  ∃ e, r = .error e ∧ (sure → e = .unfit m)

end Defs

/-! ### Ends of texts -/

theorem EndsInDigit.of_suffix (h : EndsInDigit rest) (hs : rest <:+ cs) : EndsInDigit cs := by
  obtain ⟨w, rfl⟩ := hs
  obtain ⟨d, hd, hdigit⟩ := h
  refine ⟨d, ?_, hdigit⟩
  rw [Option.mem_def] at hd ⊢
  rw [List.getLast?_append, hd, Option.some_or]

theorem endsInDigit_of_digits {ds : List Char} (hne : ds ≠ []) (h : ∀ d ∈ ds, d.isDigit = true) :
    EndsInDigit ds :=
  ⟨ds.getLast hne, List.getLast?_eq_some_getLast hne, h _ (List.getLast_mem hne)⟩

theorem Joins.of_suffix (h : Joins cs u) (hs : rest <:+ cs) : Joins rest u :=
  h.imp (fun hcs hrest => hcs (hrest.of_suffix hs)) id

theorem Joins.numberStops (h : Joins cs u) (hcs : EndsInDigit cs) : NumberStops u :=
  h.resolve_left fun hno => hno hcs

theorem NumberStops.append (h : NumberStops rest) (hu : rest = [] → NumberStops u) :
    NumberStops (rest ++ u) := by
  cases rest with
  | nil => exact hu rfl
  | cons c rest => exact fun d hd => h d hd

theorem NumberStops.of_append (h : NumberStops (rest ++ u)) : NumberStops rest := by
  cases rest with
  | nil => exact nofun
  | cons c rest => exact fun d hd => h d hd

theorem NoDigit.append (h : NoDigit rest) (hu : rest = [] → NoDigit u) : NoDigit (rest ++ u) := by
  cases rest with
  | nil => exact hu rfl
  | cons c rest => exact fun d hd => h d hd

/-! ### Results -/

theorem Persists.of_error {α : Type} {sure : Prop} {r : Except Fault α}
    (h : r = .error (.unfit m)) : Persists m sure r :=
  ⟨_, h, fun _ => rfl⟩

theorem Persists.mono {α : Type} {sure sure' : Prop} {r : Except Fault α}
    (h : Persists m sure r) (hsure : sure' → sure) : Persists m sure' r := by
  obtain ⟨e, he, hm⟩ := h
  exact ⟨e, he, fun hs => hm (hsure hs)⟩

/-- What is done after a fault does not matter. -/
theorem Persists.bind {α β : Type} {sure : Prop} {r : Except Fault α} (h : Persists m sure r)
    (f : α → Except Fault β) : Persists m sure (r >>= f) := by
  obtain ⟨e, rfl, hm⟩ := h
  exact ⟨e, rfl, hm⟩

theorem Persists.ne_ok {α : Type} {sure : Prop} {r : Except Fault α} (h : Persists m sure r)
    (a : α) : r ≠ .ok a := by
  obtain ⟨e, rfl, -⟩ := h
  exact nofun

theorem Persists.eq_error {α : Type} {sure : Prop} {r : Except Fault α} (h : Persists m sure r)
    (hs : sure) : r = .error (.unfit m) := by
  obtain ⟨e, rfl, hm⟩ := h
  rw [hm hs]

/-! ### Blanks and strings -/

theorem skipBlanks_continue (h : skipBlanks cs = c :: rest) (u : List Char) :
    skipBlanks (cs ++ u) = c :: (rest ++ u) := by
  obtain ⟨ws, hws, hcs⟩ := exists_blanks cs
  rw [h] at hcs
  have hc : isBlank c = false := by
    have hhead := List.head?_dropWhile_not isBlank cs
    rw [show cs.dropWhile isBlank = c :: rest from h] at hhead
    exact hhead
  rw [hcs]
  exact (skipBlanks_eq_cons_iff hc).mpr ⟨ws, hws, by simp⟩

theorem suffix_of_skipBlanks (h : skipBlanks cs = c :: rest) : rest <:+ cs :=
  (List.suffix_cons c rest).trans (h ▸ List.dropWhile_suffix isBlank)

theorem readText_continue {text : List Char} (h : readText cs = some (text, rest))
    (u : List Char) : readText (cs ++ u) = some (text, rest ++ u) := by
  obtain ⟨w, hw, rfl⟩ := readText_eq_some_iff.mp h
  exact readText_eq_some_iff.mpr ⟨w, hw, by simp⟩

theorem readName_continue {name : String} {found found' : Found}
    (h : readName name found cs = some (found', rest)) (u : List Char) :
    readName name found (cs ++ u) = some (found', rest ++ u) := by
  unfold readName at h ⊢
  split at h
  · rename_i hname
    cases h
    obtain ⟨tail, rfl⟩ := List.isPrefixOf_iff_prefix.mp hname
    rw [List.append_assoc, if_pos (List.isPrefixOf_iff_prefix.mpr (List.prefix_append ..))]
    simp [← String.length_toList]
  · cases h

/-! ### Numbers -/

theorem readDigits_continue {ds : List Char} (h : readDigits cs = some (ds, rest))
    (hu : rest = [] → NumberStops u) : readDigits (cs ++ u) = some (ds, rest ++ u) := by
  obtain ⟨rfl, hne, hds, hrest⟩ := readDigits_eq_some_iff.mp h
  exact readDigits_eq_some_iff.mpr
    ⟨List.append_assoc .., hne, hds, hrest.append fun hnil => (hu hnil).noDigit⟩

theorem suffix_of_readDigits {ds : List Char} (h : readDigits cs = some (ds, rest)) :
    rest <:+ cs :=
  ⟨ds, (readDigits_eq_some_iff.mp h).1.symm⟩

theorem endsInDigit_of_readDigits {ds : List Char} (h : readDigits cs = some (ds, [])) :
    EndsInDigit cs := by
  obtain ⟨rfl, hne, hds, -⟩ := readDigits_eq_some_iff.mp h
  rw [List.append_nil]
  exact endsInDigit_of_digits hne hds

theorem readFraction_eq_some_some_iff {ds : List Char} :
    readFraction cs = some (some ds, rest) ↔
      ∃ tail, cs = '.' :: tail ∧ readDigits tail = some (ds, rest) := by
  constructor
  · intro h
    unfold readFraction at h
    split at h
    · obtain ⟨⟨ds', rest'⟩, hdigits, he⟩ := Option.map_eq_some_iff.mp h
      cases he
      exact ⟨_, rfl, hdigits⟩
    · cases h
  · rintro ⟨tail, rfl, hdigits⟩
    show (readDigits tail).map _ = _
    rw [hdigits]
    rfl

theorem readFraction_continue {fraction : Option (List Char)}
    (h : readFraction cs = some (fraction, rest)) (hu : rest = [] → NumberStops u) :
    readFraction (cs ++ u) = some (fraction, rest ++ u) := by
  cases fraction with
  | none =>
    obtain ⟨rfl, hdot⟩ := readFraction_eq_some_none_iff.mp h
    refine readFraction_eq_some_none_iff.mpr ⟨rfl, ?_⟩
    cases rest with
    | nil => exact fun he => (hu rfl _ he).2.1 rfl
    | cons c rest => exact hdot
  | some ds =>
    obtain ⟨tail, rfl, hdigits⟩ := readFraction_eq_some_some_iff.mp h
    exact readFraction_eq_some_some_iff.mpr ⟨tail ++ u, rfl, readDigits_continue hdigits hu⟩

theorem suffix_of_readFraction {fraction : Option (List Char)}
    (h : readFraction cs = some (fraction, rest)) : rest <:+ cs := by
  cases fraction with
  | none =>
    obtain ⟨rfl, -⟩ := readFraction_eq_some_none_iff.mp h
    exact List.suffix_rfl
  | some ds =>
    obtain ⟨tail, rfl, hdigits⟩ := readFraction_eq_some_some_iff.mp h
    exact (suffix_of_readDigits hdigits).trans (List.suffix_cons ..)

/-- Where the text ends behind it, a fraction is none, or it ends in a digit. -/
theorem endsInDigit_of_readFraction {fraction : Option (List Char)}
    (h : readFraction cs = some (fraction, [])) : cs = [] ∨ EndsInDigit cs := by
  cases fraction with
  | none => exact .inl (readFraction_eq_some_none_iff.mp h).1.symm
  | some ds =>
    obtain ⟨tail, rfl, hdigits⟩ := readFraction_eq_some_some_iff.mp h
    exact .inr ((endsInDigit_of_readDigits hdigits).of_suffix (List.suffix_cons ..))

theorem suffix_of_readSign (cs : List Char) : (readSign cs).2 <:+ cs := by
  unfold readSign
  split
  · exact List.suffix_cons ..
  · exact List.suffix_cons ..
  · exact List.suffix_rfl

theorem readSign_continue (hne : cs ≠ []) (u : List Char) :
    readSign (cs ++ u) = ((readSign cs).1, (readSign cs).2 ++ u) := by
  obtain ⟨c, cs, rfl⟩ := List.exists_cons_of_ne_nil hne
  by_cases hminus : c = '-'
  · subst hminus
    rfl
  by_cases hplus : c = '+'
  · subst hplus
    rfl
  simp [readSign, hminus, hplus]

theorem readExponent_eq_some_some_iff {negative : Bool} {ds : List Char} :
    readExponent cs = some (some (negative, ds), rest) ↔
      ∃ c tail, (c == 'e' || c == 'E') = true ∧ cs = c :: tail ∧ (readSign tail).1 = negative ∧
        readDigits (readSign tail).2 = some (ds, rest) := by
  have hmap : ∀ tail : List Char,
      ((readDigits (readSign tail).2).map fun r => (some ((readSign tail).1, r.1), r.2)) =
          some (some (negative, ds), rest) ↔
        (readSign tail).1 = negative ∧ readDigits (readSign tail).2 = some (ds, rest) := by
    intro tail
    simp only [Option.map_eq_some_iff, Prod.exists, Prod.mk.injEq, Option.some.injEq]
    constructor
    · rintro ⟨ds', rest', hdigits, ⟨hsign, rfl⟩, rfl⟩
      exact ⟨hsign, hdigits⟩
    · rintro ⟨hsign, hdigits⟩
      exact ⟨ds, rest, hdigits, ⟨hsign, rfl⟩, rfl⟩
  constructor
  · intro h
    cases cs with
    | nil => cases h
    | cons c tail =>
      by_cases hmark : (c == 'e' || c == 'E') = true
      · rw [readExponent, if_pos hmark] at h
        exact ⟨c, tail, hmark, rfl, (hmap tail).mp h⟩
      · rw [readExponent, if_neg hmark] at h
        cases h
  · rintro ⟨c, tail, hmark, rfl, h⟩
    rw [readExponent, if_pos hmark]
    exact (hmap tail).mpr h

theorem readExponent_continue {exponent : Option (Bool × List Char)}
    (h : readExponent cs = some (exponent, rest)) (hu : rest = [] → NumberStops u) :
    readExponent (cs ++ u) = some (exponent, rest ++ u) := by
  cases exponent with
  | none =>
    obtain ⟨rfl, hlower, hupper⟩ := readExponent_eq_some_none_iff.mp h
    refine readExponent_eq_some_none_iff.mpr ⟨rfl, ?_⟩
    cases rest with
    | nil => exact ⟨fun he => (hu rfl _ he).2.2.1 rfl, fun he => (hu rfl _ he).2.2.2 rfl⟩
    | cons c rest => exact ⟨hlower, hupper⟩
  | some e =>
    obtain ⟨c, tail, hmark, rfl, hsign, hdigits⟩ := readExponent_eq_some_some_iff.mp h
    have hne : tail ≠ [] := by
      rintro rfl
      cases hdigits
    refine readExponent_eq_some_some_iff.mpr ⟨c, tail ++ u, hmark, rfl, ?_, ?_⟩
    · rw [readSign_continue hne]
      exact hsign
    · rw [readSign_continue hne]
      exact readDigits_continue hdigits hu

theorem suffix_of_readExponent {exponent : Option (Bool × List Char)}
    (h : readExponent cs = some (exponent, rest)) : rest <:+ cs := by
  cases exponent with
  | none =>
    obtain ⟨rfl, -⟩ := readExponent_eq_some_none_iff.mp h
    exact List.suffix_rfl
  | some e =>
    obtain ⟨c, tail, -, rfl, -, hdigits⟩ := readExponent_eq_some_some_iff.mp h
    have hsign := (suffix_of_readSign tail).trans (List.suffix_cons c tail)
    exact (suffix_of_readDigits hdigits).trans hsign

/-- Where the text ends behind it, an exponent is none, or it ends in a digit. -/
theorem endsInDigit_of_readExponent {exponent : Option (Bool × List Char)}
    (h : readExponent cs = some (exponent, [])) : cs = [] ∨ EndsInDigit cs := by
  cases exponent with
  | none => exact .inl (readExponent_eq_some_none_iff.mp h).1.symm
  | some e =>
    obtain ⟨c, tail, -, rfl, -, hdigits⟩ := readExponent_eq_some_some_iff.mp h
    have hsign := (suffix_of_readSign tail).trans (List.suffix_cons c tail)
    exact .inr ((endsInDigit_of_readDigits hdigits).of_suffix hsign)

theorem readUnsigned_continue {negative : Bool} {l : Numeral}
    (h : readUnsigned negative cs = some (l, rest)) (hu : rest = [] → NumberStops u) :
    readUnsigned negative (cs ++ u) = some (l, rest ++ u) := by
  obtain ⟨hnegative, cs₁, cs₂, hwhole, hfraction, hexponent⟩ := readUnsigned_eq_some_iff.mp h
  obtain ⟨hdigits, hzero⟩ := readWhole_eq_some_iff.mp hwhole
  -- What is left only gets shorter, so what stops the last part stops the others, too.
  have hu₂ : cs₂ = [] → NumberStops u := by
    rintro rfl
    exact hu (List.suffix_nil.mp (suffix_of_readExponent hexponent))
  have hu₁ : cs₁ = [] → NumberStops u := by
    rintro rfl
    exact hu₂ (List.suffix_nil.mp (suffix_of_readFraction hfraction))
  refine readUnsigned_eq_some_iff.mpr ⟨hnegative, cs₁ ++ u, cs₂ ++ u, ?_, ?_, ?_⟩
  · exact readWhole_eq_some_iff.mpr ⟨readDigits_continue hdigits hu₁, hzero⟩
  · exact readFraction_continue hfraction hu₂
  · exact readExponent_continue hexponent hu

/-- The last part that a number has ends in a digit. -/
theorem endsInDigit_of_readUnsigned {negative : Bool} {l : Numeral}
    (h : readUnsigned negative cs = some (l, [])) : EndsInDigit cs := by
  obtain ⟨-, cs₁, cs₂, hwhole, hfraction, hexponent⟩ := readUnsigned_eq_some_iff.mp h
  obtain ⟨hdigits, -⟩ := readWhole_eq_some_iff.mp hwhole
  have hsuffix := suffix_of_readDigits hdigits
  rcases endsInDigit_of_readExponent hexponent with rfl | hends
  · rcases endsInDigit_of_readFraction hfraction with rfl | hends
    · exact endsInDigit_of_readDigits hdigits
    · exact hends.of_suffix hsuffix
  · exact hends.of_suffix ((suffix_of_readFraction hfraction).trans hsuffix)

theorem readNumeral_cons_of_ne (h : c ≠ '-') (cs : List Char) :
    readNumeral (c :: cs) = readUnsigned false (c :: cs) := by
  simp [readNumeral, h]

theorem readNumeral_continue {l : Numeral} (h : readNumeral cs = some (l, rest))
    (hu : rest = [] → NumberStops u) : readNumeral (cs ++ u) = some (l, rest ++ u) := by
  cases cs with
  | nil => cases h
  | cons c cs =>
    by_cases hminus : c = '-'
    · subst hminus
      have hunsigned : readUnsigned true cs = some (l, rest) := h
      exact readUnsigned_continue hunsigned hu
    · rw [readNumeral_cons_of_ne hminus] at h
      rw [List.cons_append, readNumeral_cons_of_ne hminus]
      exact readUnsigned_continue h hu

theorem endsInDigit_of_readNumeral {l : Numeral} (h : readNumeral cs = some (l, [])) :
    EndsInDigit cs := by
  unfold readNumeral at h
  split at h
  · exact (endsInDigit_of_readUnsigned h).of_suffix (List.suffix_cons ..)
  · exact endsInDigit_of_readUnsigned h

theorem readNumber_eq_some_iff {x : Number} :
    readNumber cs = some (x, rest) ↔ ∃ l, readNumeral cs = some (l, rest) ∧ l.value? = some x := by
  simp only [readNumber, Option.bind_eq_bind, Option.bind_eq_some_iff, Prod.exists,
    Option.some.injEq, Prod.mk.injEq]
  constructor
  · rintro ⟨l, rest, hl, x, hx, rfl, rfl⟩
    exact ⟨l, hl, hx⟩
  · rintro ⟨l, hl, hx⟩
    exact ⟨l, rest, hl, x, hx, rfl, rfl⟩

/-- A number is read as before if it stops where the text ended. -/
theorem readNumber_continue {x : Number} (h : readNumber cs = some (x, rest))
    (hu : rest = [] → NumberStops u) : readNumber (cs ++ u) = some (x, rest ++ u) := by
  obtain ⟨l, hl, hx⟩ := readNumber_eq_some_iff.mp h
  exact readNumber_eq_some_iff.mpr ⟨l, readNumeral_continue hl hu, hx⟩

theorem endsInDigit_of_readNumber {x : Number} (h : readNumber cs = some (x, [])) :
    EndsInDigit cs := by
  obtain ⟨l, hl, -⟩ := readNumber_eq_some_iff.mp h
  exact endsInDigit_of_readNumeral hl

/-! ### Scalars -/

/-- A scalar is read as before where the texts join. -/
theorem readScalar_continue {found : Found} (h : readScalar cs = some (found, rest))
    (hu : Joins cs u) : readScalar (cs ++ u) = some (found, rest ++ u) := by
  unfold readScalar at h
  split at h
  · exact readName_continue h u
  · exact readName_continue h u
  · exact readName_continue h u
  · rename_i tail
    obtain ⟨⟨text, rest'⟩, hread, he⟩ := Option.map_eq_some_iff.mp h
    cases he
    show (readText (tail ++ u)).map _ = _
    rw [readText_continue hread]
    rfl
  · rename_i hnull htrue hfalse hquote
    obtain ⟨⟨x, rest'⟩, hread, he⟩ := Option.map_eq_some_iff.mp h
    cases he
    have hnumber : readNumber (cs ++ u) = some (x, rest' ++ u) := by
      refine readNumber_continue hread ?_
      rintro rfl
      exact hu.numberStops (endsInDigit_of_readNumber hread)
    -- The first character decides which scalar is read, and it is the same with more text.
    obtain ⟨c, cs, rfl⟩ := List.exists_cons_of_ne_nil fun hnil : cs = [] => by
      subst hnil
      cases hread
    rw [List.cons_append] at hnumber ⊢
    unfold readScalar
    split
    · rename_i heq
      cases heq
      exact absurd rfl (hnull cs)
    · rename_i heq
      cases heq
      exact absurd rfl (htrue cs)
    · rename_i heq
      cases heq
      exact absurd rfl (hfalse cs)
    · rename_i heq
      cases heq
      exact absurd rfl (hquote cs)
    · rw [hnumber]
      rfl

/-! ### Offsets -/

/-- An offset is read as before if it stops where the text ended. -/
theorem readOffset_continue (h : readOffset cs = .ok (n, rest)) (hu : rest = [] → NumberStops u) :
    readOffset (cs ++ u) = .ok (n, rest ++ u) := by
  obtain ⟨ws, ds, hws, hds, hrest, rfl⟩ := readOffset_eq_ok_iff.mp h
  exact readOffset_eq_ok_iff.mpr ⟨ws, ds, hws, hds, hrest.append hu, by simp⟩

/-- The first digits of an offset are an offset, too. -/
theorem OffsetLiteral.exists_of_append {ds ds' : List Char} (h : OffsetLiteral n (ds ++ ds'))
    (hne : ds ≠ []) : ∃ k, OffsetLiteral k ds := by
  have hle : digitsValue ds ≤ digitsValue (ds ++ ds') := by
    rw [digitsValue, digitsValue, List.foldl_append]
    exact le_foldl_digits _ ds'
  have hvalue : digitsValue (ds ++ ds') = n.toNat := (digitsValue_eq _).trans h.value
  have hlt : digitsValue ds < offsetCount := by
    have := n.toNat_lt_count
    omega
  have hk : Offset.ofNat? (digitsValue ds) ≠ none := by
    rw [Ne, Offset.ofNat?_eq_none_iff]
    omega
  obtain ⟨k, hk⟩ := Option.ne_none_iff_exists'.mp hk
  refine ⟨k, hne, fun d hd => h.digits d (List.mem_append_left _ hd), ?_, ?_⟩
  · intro hzero
    have hall : ds ++ ds' = ['0'] :=
      h.no_leading_zero (by rw [List.head?_append, hzero, Option.some_or])
    obtain ⟨d, ds, rfl⟩ := List.exists_cons_of_ne_nil hne
    cases hzero
    have htail : ds ++ ds' = [] := List.tail_eq_of_cons_eq hall
    rw [(List.append_eq_nil_iff.mp htail).1]
  · rw [← digitsValue_eq]
    exact (Offset.ofNat?_eq_some_iff.mp hk).symm

theorem readOffset_of_blanks (h : Blanks cs) : readOffset cs = .error .malformed := by
  unfold readOffset
  rw [skipBlanks_eq_nil_iff.mpr h]
  rfl

/-- Where an offset stands once there is more text, no other value stands before that. -/
theorem readOffset_ne_unfit (h : readOffset (cs ++ u) = .ok (n, rest)) :
    readOffset cs ≠ .error (.unfit m) := by
  obtain ⟨ws, ds, hws, hds, hrest, he⟩ := readOffset_eq_ok_iff.mp h
  -- The text ends among the blanks, among the digits or behind them.
  rcases List.append_eq_append_iff.mp he with ⟨ws', rfl, -⟩ | ⟨tail, rfl, htail⟩
  · rw [readOffset_of_blanks fun c hc => hws c (List.mem_append_left _ hc)]
    exact nofun
  rcases List.append_eq_append_iff.mp htail with ⟨rest', rfl, rfl⟩ | ⟨ds', rfl, -⟩
  · have hread := readOffset_append hws hds hrest.of_append
    rw [hread]
    exact nofun
  · by_cases hne : tail = []
    · rw [hne, List.append_nil, readOffset_of_blanks hws]
      exact nofun
    · obtain ⟨k, hk⟩ := hds.exists_of_append hne
      have hread := readOffset_append hws hk (nofun : NumberStops [])
      rw [List.append_nil] at hread
      rw [hread]
      exact nofun

/-- Another value in the place of an offset is still read where the texts join. -/
theorem readOffset_unfit_continue (h : readOffset cs = .error (.unfit m)) (hu : Joins cs u) :
    readOffset (cs ++ u) = .error (.unfit m) := by
  unfold readOffset at h
  split at h
  · rename_i heq
    cases h
    unfold readOffset
    rw [skipBlanks_continue heq u]
    rfl
  · rename_i heq
    cases h
    unfold readOffset
    rw [skipBlanks_continue heq u]
    rfl
  · rename_i hsequence hmap
    split at h
    · cases h
    · rename_i found rest hscalar
      obtain ⟨c, tail, heq⟩ := List.exists_cons_of_ne_nil fun hnil : skipBlanks cs = [] => by
        rw [hnil] at hscalar
        cases hscalar
      have hjoins : Joins (skipBlanks cs) u := hu.of_suffix (List.dropWhile_suffix isBlank)
      have hread := readScalar_continue hscalar hjoins
      unfold readOffset
      rw [skipBlanks_continue heq u]
      rw [heq] at hread hsequence hmap
      split
      · rename_i hopen
        cases hopen
        exact absurd rfl (hsequence tail)
      · rename_i hopen
        cases hopen
        exact absurd rfl (hmap tail)
      · rw [← List.cons_append, hread]
        cases hoffset : found.offset with
        | ok k =>
          rw [hoffset] at h
          cases h
        | error e =>
          rw [hoffset] at h
          cases h
          simp only [hoffset]
          rfl

/-- **No offset comes about by more text** where there is something else, and what is found there
stays the same where the texts join. -/
theorem readOffset_persists (h : readOffset cs = .error (.unfit m)) (u : List Char) :
    Persists m (Joins cs u) (readOffset (cs ++ u)) := by
  by_cases hu : Joins cs u
  · exact .of_error (readOffset_unfit_continue h hu)
  · cases hread : readOffset (cs ++ u) with
    | ok r => exact absurd h (readOffset_ne_unfit hread)
    | error e => exact ⟨e, rfl, fun hjoins => absurd hjoins hu⟩

end DirtyRegion.Json
