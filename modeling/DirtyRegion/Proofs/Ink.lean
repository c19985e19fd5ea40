import DirtyRegion.Outline
import DirtyRegion.Proofs.Reader

/-!
# Ink — what both layouts of an outline have in common

The two layouts of an outline differ in blanks, line breaks and commas alone. What is left of a text
without these is its ink, and it is enough to read the outline back, so far as the names in it are
names: letters only, and no title that begins as another kind of outline does.

- `Outline.inkOf` is the ink of a text, `Outline.ink` that of an outline.
- `Outline.Named` says that all titles and keys are names.
- `Outline.reader` reads ink, and `Outline.read?` reads a text in either layout.

Main statements: `inkOf_line` and `inkOf_block` (both layouts have the ink of the outline),
`reader_ink` (an outline is read back from its ink, whatever follows), and from these `read?_line`
and `read?_block`.
-/

namespace DirtyRegion

open Json (NoDigit noDigit_cons noDigit_nil)

namespace Reader

variable {α : Type}

/-- The value of a text that is read to its end. -/
def whole? (r : Reader α) (cs : List Char) : Option α :=
  match r cs with
  | some (a, []) => some a
  | _ => none

theorem whole?_of_append {r : Reader α} {cs : List Char} {a : α}
    (h : r (cs ++ []) = some (a, [])) : r.whole? cs = some a := by
  rw [List.append_nil] at h
  rw [whole?, h]

/-- What is read back from texts is told apart by them. -/
theorem eq_iff_of_read {read? : String → Option α} {render : α → String} {a b : α}
    (ha : read? (render a) = some a) (hb : read? (render b) = some b) :
    render a = render b ↔ a = b := by
  constructor
  · intro h
    rw [h, hb] at ha
    exact (Option.some.inj ha).symm
  · rintro rfl
    rfl

end Reader

namespace Outline

section Defs

/-- Blanks, line breaks and commas set parts of an outline off and are none. -/
def isSpacing (c : Char) : Bool :=
  c == ' ' || c == '\n' || c == ','

/-- The characters of a text without spacing. -/
def inkOf (text : String) : List Char :=
  text.toList.filter fun c => !isSpacing c

def isLetter (c : Char) : Bool :=
  c.isAlpha || c == '_'

/-- A text of letters. -/
def isName (text : String) : Bool :=
  !text.toList.isEmpty && text.toList.all isLetter

/-- A name that begins as no other kind of outline does. -/
def isTitle (text : String) : Bool :=
  isName text && Reader.apart "None" text && Reader.apart "Some(" text

mutual

/-- All titles and keys in an outline are names. -/
def Named : Outline → Prop
  | number _ => True
  | absent => True
  | present value => value.Named
  | group title fields => isTitle title = true ∧ NamedFields fields

def NamedFields : List (String × Outline) → Prop
  | [] => True
  | (key, value) :: rest => isName key = true ∧ value.Named ∧ NamedFields rest

end

mutual

/-- The ink of an outline, in either layout. -/
def ink : Outline → List Char
  | number n => n.repr.toList
  | absent => "None".toList
  | present value => "Some(".toList ++ (value.ink ++ ")".toList)
  | group title fields => title.toList ++ ("\x7b".toList ++ (inkFields fields ++ "\x7d".toList))

def inkFields : List (String × Outline) → List Char
  | [] => []
  | (key, value) :: rest => key.toList ++ (":".toList ++ (value.ink ++ inkFields rest))

end

/-- The text does not begin with a letter. -/
def NoLetter (cs : List Char) : Prop :=
  ∀ c ∈ cs.head?, isLetter c = false

/-- The letters at the front. -/
def nameReader : Reader String :=
  fun cs => some (String.ofList (cs.takeWhile isLetter), cs.dropWhile isLetter)

def numberReader : Reader Outline :=
  number <$> Reader.natural

def absentReader : Reader Outline := do
  Reader.literal "None"
  return absent

def presentReader (value : Reader Outline) : Reader Outline := do
  Reader.literal "Some("
  let value ← value
  Reader.literal ")"
  return present value

/-- A group, when `fields` also reads what closes it. -/
def groupReader (fields : Reader (List (String × Outline))) : Reader Outline := do
  let title ← nameReader
  Reader.literal "\x7b"
  return group title (← fields)

/-- One field and those behind it. -/
def fieldReader (value : Reader Outline) (rest : Reader (List (String × Outline))) :
    Reader (List (String × Outline)) := do
  let key ← nameReader
  Reader.literal ":"
  let value ← value
  return (key, value) :: (← rest)

def closeReader : Reader (List (String × Outline)) := do
  Reader.literal "\x7d"
  return []

mutual

/-- Reads the ink of an outline that has fewer characters than the given number. -/
def reader : ℕ → Reader Outline
  | 0 => failure
  | n + 1 => numberReader <|> absentReader <|> presentReader (reader n) <|>
      groupReader (fieldsReader n)

/-- Reads the ink of fields that have fewer characters than the given number, and what closes their
group. -/
def fieldsReader : ℕ → Reader (List (String × Outline))
  | 0 => failure
  | n + 1 => closeReader <|> fieldReader (reader n) (fieldsReader n)

end

/-- The outline that a text in either layout shows. -/
def read? (text : String) : Option Outline :=
  (reader ((inkOf text).length + 1)).whole? (inkOf text)

end Defs

/-! ### Names -/

theorem isName_iff {text : String} :
    isName text = true ↔ text.toList ≠ [] ∧ ∀ c ∈ text.toList, isLetter c = true := by
  rw [isName, Bool.and_eq_true, Bool.not_eq_true', List.isEmpty_eq_false_iff, List.all_eq_true]

theorem isTitle_iff {text : String} :
    isTitle text = true ↔ isName text = true ∧ Reader.apart "None" text = true ∧
      Reader.apart "Some(" text = true := by
  rw [isTitle, Bool.and_eq_true, Bool.and_eq_true, and_assoc]

theorem noLetter_cons {c : Char} (h : isLetter c = false) (cs : List Char) :
    NoLetter (c :: cs) := by
  rintro d ⟨⟩
  exact h

/-- All letters stand behind the digits. -/
theorem not_isDigit {c : Char} (h : isLetter c = true) : c.isDigit = false := by
  have hle : 'A'.toNat ≤ c.toNat := by
    rw [isLetter, Bool.or_eq_true, beq_iff_eq] at h
    rcases h with h | rfl
    · have hcases : (decide ('A'.toNat ≤ c.toNat ∧ c.toNat ≤ 'Z'.toNat) ||
          (decide ('a'.toNat ≤ c.toNat) && decide (c.toNat ≤ 'z'.toNat))) = true := h
      have hlower : 'A'.toNat ≤ 'a'.toNat := by decide
      simp only [Bool.or_eq_true, Bool.and_eq_true, decide_eq_true_eq] at hcases
      omega
    · decide
  have hdigits : '9'.toNat < 'A'.toNat := by decide
  rw [Bool.eq_false_iff, Ne, Char.isDigit_iff_toNat]
  omega

/-- A name begins with a letter. -/
theorem exists_cons_of_isName {text : String} (h : isName text = true) :
    ∃ c cs, text.toList = c :: cs ∧ isLetter c = true := by
  obtain ⟨hne, hletters⟩ := isName_iff.mp h
  obtain ⟨c, cs, hcs⟩ := List.exists_cons_of_ne_nil hne
  exact ⟨c, cs, hcs, hletters c (by simp [hcs])⟩

theorem noDigit_of_isName {text : String} (h : isName text = true) (rest : List Char) :
    NoDigit (text.toList ++ rest) := by
  obtain ⟨c, cs, hcs, hc⟩ := exists_cons_of_isName h
  rw [hcs]
  exact noDigit_cons (not_isDigit hc) _

/-! ### Ink of texts -/

theorem inkOf_append (s t : String) : inkOf (s ++ t) = inkOf s ++ inkOf t := by
  simp [inkOf]

theorem not_isSpacing {c : Char} (h : isLetter c = true ∨ c.isDigit = true) :
    isSpacing c = false := by
  rw [Bool.eq_false_iff]
  intro hc
  simp only [isSpacing, Bool.or_eq_true, beq_iff_eq] at hc
  rcases hc with (rfl | rfl) | rfl <;> revert h <;> decide

theorem inkOf_of_isName {text : String} (h : isName text = true) : inkOf text = text.toList := by
  apply List.filter_eq_self.mpr
  intro c hc
  rw [not_isSpacing (.inl ((isName_iff.mp h).2 c hc)), Bool.not_false]

theorem inkOf_of_isTitle {text : String} (h : isTitle text = true) : inkOf text = text.toList :=
  inkOf_of_isName (isTitle_iff.mp h).1

theorem inkOf_repr (n : ℕ) : inkOf n.repr = n.repr.toList := by
  apply List.filter_eq_self.mpr
  intro c hc
  rw [not_isSpacing (.inr (Json.isDigit_of_mem_repr hc)), Bool.not_false]

theorem inkOf_indent (depth : ℕ) : inkOf (indent depth) = [] := by
  simp [inkOf, indent, isSpacing]

/-! ### Both layouts -/

mutual

theorem inkOf_line : ∀ o : Outline, o.Named → inkOf o.line = o.ink
  | number n, _ => inkOf_repr n
  | absent, _ => rfl
  | present value, h => by
    have hvalue := inkOf_line value h
    simp only [line, ink, inkOf_append, hvalue, List.append_assoc]
    rfl
  | group title fields, ⟨htitle, hfields⟩ => by
    have hink := inkOf_lineFields fields hfields
    simp only [line, ink, inkOf_append, inkOf_of_isTitle htitle, hink, List.append_assoc]
    rfl

theorem inkOf_lineFields : ∀ fields : List (String × Outline), NamedFields fields →
    inkOf (lineFields fields) = inkFields fields
  | [], _ => rfl
  | [(key, value)], ⟨hkey, hvalue, _⟩ => by
    simp only [lineFields, inkFields, inkOf_append, inkOf_of_isName hkey, inkOf_line value hvalue,
      List.append_assoc, List.append_nil]
    rfl
  | (key, value) :: field :: rest, ⟨hkey, hvalue, hrest⟩ => by
    have hink := inkOf_lineFields (field :: rest) hrest
    simp only [lineFields, inkOf_append, inkOf_of_isName hkey, inkOf_line value hvalue, hink,
      List.append_assoc]
    rfl

end

mutual

theorem inkOf_blockAt : ∀ (o : Outline) (depth : ℕ), o.Named → inkOf (o.blockAt depth) = o.ink
  | number n, _, _ => by
    rw [blockAt, ink, inkOf_repr]
  | absent, _, _ => by
    rw [blockAt, ink]
    rfl
  | present value, depth, h => by
    have hvalue := inkOf_blockAt value (depth + 1) h
    simp only [blockAt, ink, inkOf_append, inkOf_indent, hvalue, List.append_assoc, List.nil_append]
    rfl
  | group title fields, depth, ⟨htitle, hfields⟩ => by
    have hink := inkOf_blockFields fields (depth + 1) hfields
    simp only [blockAt, ink, inkOf_append, inkOf_indent, inkOf_of_isTitle htitle, hink,
      List.append_assoc, List.nil_append]
    rfl

theorem inkOf_blockFields : ∀ (fields : List (String × Outline)) (depth : ℕ), NamedFields fields →
    inkOf (blockFields depth fields) = inkFields fields
  | [], _, _ => rfl
  | (key, value) :: rest, depth, ⟨hkey, hvalue, hrest⟩ => by
    have hink := inkOf_blockFields rest depth hrest
    simp only [blockFields, inkFields, inkOf_append, inkOf_indent, inkOf_of_isName hkey,
      inkOf_blockAt value depth hvalue, hink, List.append_assoc, List.nil_append]
    rfl

end

theorem inkOf_block (o : Outline) (h : o.Named) : inkOf o.block = o.ink :=
  inkOf_blockAt o 0 h

/-! ### Reading -/

theorem nameReader_append {text : String} {rest : List Char} (h : isName text = true)
    (hrest : NoLetter rest) : nameReader (text.toList ++ rest) = some (text, rest) := by
  obtain ⟨htake, hdrop⟩ := Json.takeWhile_append_of_head? (isName_iff.mp h).2 hrest
  rw [nameReader, htake, hdrop, String.ofList_toList]

theorem numberReader_append (n : ℕ) {rest : List Char} (h : NoDigit rest) :
    numberReader ((number n).ink ++ rest) = some (number n, rest) :=
  Reader.map_of_some (Reader.natural_append n h)

theorem numberReader_of_noDigit {cs : List Char} (h : NoDigit cs) : numberReader cs = none :=
  Reader.map_of_none (Reader.natural_of_noDigit h)

theorem absentReader_of_apart {text : String} (h : Reader.apart "None" text = true)
    (rest : List Char) : absentReader (text.toList ++ rest) = none :=
  Reader.literal_bind_of_apart h _ rest

theorem presentReader_of_apart (r : Reader Outline) {text : String}
    (h : Reader.apart "Some(" text = true) (rest : List Char) :
    presentReader r (text.toList ++ rest) = none :=
  Reader.literal_bind_of_apart h _ rest

theorem presentReader_append {r : Reader Outline} {value : Outline} {rest : List Char}
    (h : r (value.ink ++ (")".toList ++ rest)) = some (value, ")".toList ++ rest)) :
    presentReader r ("Some(".toList ++ (value.ink ++ (")".toList ++ rest))) =
      some (present value, rest) := by
  rw [presentReader, Reader.literal_bind, Reader.bind_of_some h, Reader.literal_bind]
  rfl

theorem groupReader_append {r : Reader (List (String × Outline))} {title : String}
    {fields : List (String × Outline)} {cs rest : List Char} (htitle : isName title = true)
    (h : r cs = some (fields, rest)) :
    groupReader r (title.toList ++ ("\x7b".toList ++ cs)) = some (group title fields, rest) := by
  have hopen : NoLetter ("\x7b".toList ++ cs) := noLetter_cons rfl _
  rw [groupReader, Reader.bind_of_some (nameReader_append htitle hopen), Reader.literal_bind,
    Reader.bind_of_some h]
  rfl

/-- A group that goes on is not taken for one that closes. -/
theorem closeReader_of_isName {text : String} (h : isName text = true) (rest : List Char) :
    closeReader (text.toList ++ rest) = none := by
  obtain ⟨c, cs, hcs, hc⟩ := exists_cons_of_isName h
  have hne : '\x7d' ≠ c := by
    rintro rfl
    exact absurd hc (by decide)
  have happart : Reader.apart "\x7d" text = true := by simp [Reader.apart, hcs, hne]
  exact Reader.literal_bind_of_apart happart _ rest

theorem fieldReader_append {r : Reader Outline} {q : Reader (List (String × Outline))}
    {key : String} {value : Outline} {fields : List (String × Outline)} {cs ds rest : List Char}
    (hkey : isName key = true) (hvalue : r cs = some (value, ds))
    (hfields : q ds = some (fields, rest)) :
    fieldReader r q (key.toList ++ (":".toList ++ cs)) = some ((key, value) :: fields, rest) := by
  have hcolon : NoLetter (":".toList ++ cs) := noLetter_cons rfl _
  rw [fieldReader, Reader.bind_of_some (nameReader_append hkey hcolon), Reader.literal_bind,
    Reader.bind_of_some hvalue, Reader.bind_of_some hfields]
  rfl

theorem noDigit_inkFields {fields : List (String × Outline)} (h : NamedFields fields)
    {rest : List Char} (hrest : NoDigit rest) : NoDigit (inkFields fields ++ rest) := by
  cases fields with
  | nil => exact hrest
  | cons field fields =>
    rw [inkFields, List.append_assoc]
    exact noDigit_of_isName h.1 _

mutual

/-- **An outline is read back** from its ink, whatever follows. -/
theorem reader_ink : ∀ (o : Outline) (n : ℕ) (rest : List Char), o.Named → o.ink.length < n →
    NoDigit rest → reader n (o.ink ++ rest) = some (o, rest)
  | _, 0, _, _, hn, _ => absurd hn (Nat.not_lt_zero _)
  | number k, n + 1, rest, _, _, hrest => by
    rw [reader]
    exact Reader.orElse_of_some (numberReader_append k hrest)
  | absent, n + 1, rest, _, _, _ => by
    have hnumber : numberReader (absent.ink ++ rest) = none :=
      numberReader_of_noDigit (noDigit_cons rfl _)
    rw [reader, Reader.orElse_of_none hnumber]
    exact Reader.orElse_of_some (Reader.literal_bind "None" _ rest)
  | present value, n + 1, rest, h, hn, _ => by
    have hlength : value.ink.length < n := by
      simp [ink] at hn
      omega
    have hnumber : numberReader ((present value).ink ++ rest) = none :=
      numberReader_of_noDigit (noDigit_cons rfl _)
    have happart : Reader.apart "None" "Some(" = true := by decide
    have hvalue := reader_ink value n (")".toList ++ rest) h hlength (noDigit_cons rfl _)
    rw [reader, Reader.orElse_of_none hnumber, ink, List.append_assoc, List.append_assoc,
      Reader.orElse_of_none (absentReader_of_apart happart _)]
    exact Reader.orElse_of_some (presentReader_append hvalue)
  | group title fields, n + 1, rest, ⟨htitle, hfields⟩, hn, _ => by
    have hlength : (inkFields fields).length < n := by
      simp [ink] at hn
      omega
    -- The title tells a group from all other outlines, which are tried before.
    obtain ⟨hname, hnone, hsome⟩ := isTitle_iff.mp htitle
    rw [reader, ink, List.append_assoc, List.append_assoc, List.append_assoc,
      Reader.orElse_of_none (numberReader_of_noDigit (noDigit_of_isName hname _)),
      Reader.orElse_of_none (absentReader_of_apart hnone _),
      Reader.orElse_of_none (presentReader_of_apart _ hsome _)]
    exact groupReader_append hname (fieldsReader_ink fields n rest hfields hlength)

theorem fieldsReader_ink : ∀ (fields : List (String × Outline)) (n : ℕ) (rest : List Char),
    NamedFields fields → (inkFields fields).length < n →
      fieldsReader n (inkFields fields ++ ("\x7d".toList ++ rest)) = some (fields, rest)
  | _, 0, _, _, hn => absurd hn (Nat.not_lt_zero _)
  | [], n + 1, rest, _, _ => by
    rw [fieldsReader, inkFields, List.nil_append]
    exact Reader.orElse_of_some (Reader.literal_bind "\x7d" _ rest)
  | (key, value) :: fields, n + 1, rest, ⟨hkey, hvalue, hfields⟩, hn => by
    have hlength : value.ink.length < n ∧ (inkFields fields).length < n := by
      simp [inkFields] at hn
      omega
    -- A number in front of the next key, or of what closes the group, ends there.
    have hnext : NoDigit (inkFields fields ++ ("\x7d".toList ++ rest)) :=
      noDigit_inkFields hfields (noDigit_cons rfl _)
    rw [fieldsReader, inkFields, List.append_assoc, List.append_assoc, List.append_assoc,
      Reader.orElse_of_none (closeReader_of_isName hkey _)]
    exact fieldReader_append hkey (reader_ink value n _ hvalue hlength.1 hnext)
      (fieldsReader_ink fields n rest hfields hlength.2)

end

theorem read?_of_inkOf {text : String} {o : Outline} (h : o.Named) (hink : inkOf text = o.ink) :
    read? text = some o := by
  rw [read?, hink]
  exact Reader.whole?_of_append (reader_ink o _ [] h (Nat.lt_succ_self _) noDigit_nil)

theorem read?_line {o : Outline} (h : o.Named) : read? o.line = some o :=
  read?_of_inkOf h (inkOf_line o h)

theorem read?_block {o : Outline} (h : o.Named) : read? o.block = some o :=
  read?_of_inkOf h (inkOf_block o h)

example : (read? "Point \x7b\n    x: 1,\n    y: Some(\n        2,\n    ),\n\x7d").map line =
    some "Point \x7b x: 1, y: Some(2) \x7d" := by decide +kernel

/-- Outlines with names in them are told apart by either layout. -/
theorem line_inj {o p : Outline} (ho : o.Named) (hp : p.Named) : o.line = p.line ↔ o = p :=
  Reader.eq_iff_of_read (read?_line ho) (read?_line hp)

theorem block_inj {o p : Outline} (ho : o.Named) (hp : p.Named) : o.block = p.block ↔ o = p :=
  Reader.eq_iff_of_read (read?_block ho) (read?_block hp)

end Outline

end DirtyRegion
