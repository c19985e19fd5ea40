import Mathlib.Data.Nat.Notation
import DirtyRegion.Change.Journal
import DirtyRegion.Proofs.Numeral

/-!
# Readers — what stands in a line of the journal

A `Reader` takes a value off the front of a text and gives what follows it. The readers here know the
texts that spans, extents and entries are written in, and nothing of how those came about.

- `Reader.literal`, `Reader.natural`, `Reader.offset` read the parts, `Reader.choose` goes on by the
  opening that fits.
- `Span.reader`, `Extent.reader`, `Entry.reader` read whole values, `Entry.read?` a whole text.

Main statements: `Extent.reader_display` (an extent is read back, whatever follows it) and
`Entry.read?_text` (an entry is read back from its text, so no two entries have the same one).
-/

namespace DirtyRegion

open Json (NoDigit noDigit_cons noDigit_nil)

/-- Takes a value off the front of a text. -/
abbrev Reader (α : Type) := StateT (List Char) Option α

namespace Reader

variable {α β ι : Type}

section Defs

/-- What follows given characters at the front. -/
def stripChars? : List Char → List Char → Option (List Char)
  | [], ds => some ds
  | _ :: _, [] => none
  | c :: cs, d :: ds => if c = d then stripChars? cs ds else none

/-- What follows a text at the front. -/
def strip? (text : String) (cs : List Char) : Option (List Char) :=
  stripChars? text.toList cs

def literal (text : String) : Reader Unit :=
  fun cs => (strip? text cs).map ((), ·)

/-- A number in decimal digits, as many as there are. -/
def natural : Reader ℕ :=
  fun cs => (Json.readDigits cs).map fun r => (Json.digitsValue r.1, r.2)

def offset : Reader Offset := do
  Offset.ofNat? (← natural)

/-- The two texts differ before either one ends, so that no text begins with both. -/
def apart (s t : String) : Bool :=
  (s.toList.zip t.toList).any fun p => p.1 != p.2

/-- The body of the first form whose opening stands at the front. -/
def choose (opening : ι → String) (body : ι → Reader α) : List ι → Reader α
  | [] => fun _ => none
  | i :: others => fun cs =>
    match strip? (opening i) cs with
    | some rest => body i rest
    | none => choose opening body others cs

end Defs

/-! ### Parts of a text -/

theorem stripChars?_append (cs rest : List Char) : stripChars? cs (cs ++ rest) = some rest := by
  induction cs with
  | nil => rfl
  | cons c cs ih => rw [List.cons_append, stripChars?, if_pos rfl, ih]

theorem strip?_append (text : String) (rest : List Char) :
    strip? text (text.toList ++ rest) = some rest :=
  stripChars?_append _ _

theorem literal_append (text : String) (rest : List Char) :
    literal text (text.toList ++ rest) = some ((), rest) := by
  rw [literal, strip?_append, Option.map_some]

theorem stripChars?_of_apart {cs ds : List Char}
    (h : (cs.zip ds).any (fun p => p.1 != p.2) = true) (rest : List Char) :
    stripChars? cs (ds ++ rest) = none := by
  induction cs generalizing ds with
  | nil => cases h
  | cons c cs ih =>
    cases ds with
    | nil => cases h
    | cons d ds =>
      rw [List.zip_cons_cons, List.any_cons, Bool.or_eq_true] at h
      rw [List.cons_append, stripChars?]
      split
      · rename_i hcd
        exact ih (h.resolve_left (by simp [hcd]))
      · rfl

theorem strip?_of_apart {s t : String} (h : apart s t = true) (rest : List Char) :
    strip? s (t.toList ++ rest) = none :=
  stripChars?_of_apart h rest

/-- Where the openings are apart, what follows an opening is read by its own body. -/
theorem choose_of_mem {opening : ι → String} {body : ι → Reader α} {forms : List ι}
    (hapart : ∀ i j, i ≠ j → apart (opening i) (opening j) = true) {i : ι} (h : i ∈ forms)
    (rest : List Char) : choose opening body forms ((opening i).toList ++ rest) = body i rest := by
  induction forms with
  | nil => cases h
  | cons j forms ih =>
    by_cases hij : j = i
    · simp only [choose, hij, strip?_append]
    · have hmem : i ∈ forms := (List.mem_cons.mp h).resolve_left (Ne.symm hij)
      simp only [choose, strip?_of_apart (hapart j i hij)]
      exact ih hmem

theorem bind_of_some {r : Reader α} {f : α → Reader β} {cs rest : List Char} {a : α}
    (h : r cs = some (a, rest)) : (r >>= f) cs = f a rest := by
  show (r cs).bind _ = _
  rw [h, Option.bind_some]

theorem literal_bind (text : String) (f : Unit → Reader β) (rest : List Char) :
    (literal text >>= f) (text.toList ++ rest) = f () rest :=
  bind_of_some (literal_append text rest)

theorem bind_of_none {r : Reader α} {f : α → Reader β} {cs : List Char} (h : r cs = none) :
    (r >>= f) cs = none := by
  show (r cs).bind _ = none
  rw [h, Option.bind_none]

theorem map_of_some {r : Reader α} {g : α → β} {cs rest : List Char} {a : α}
    (h : r cs = some (a, rest)) : (g <$> r) cs = some (g a, rest) := by
  show (r cs).bind _ = _
  rw [h, Option.bind_some]
  rfl

theorem map_of_none {r : Reader α} {g : α → β} {cs : List Char} (h : r cs = none) :
    (g <$> r) cs = none := by
  show (r cs).bind _ = none
  rw [h, Option.bind_none]

theorem orElse_of_some {r q : Reader α} {cs : List Char} {a : α × List Char}
    (h : r cs = some a) : (r <|> q) cs = some a := by
  show (r cs <|> q cs) = some a
  rw [h]
  rfl

theorem orElse_of_none {r q : Reader α} {cs : List Char} (h : r cs = none) :
    (r <|> q) cs = q cs := by
  show (r cs <|> q cs) = q cs
  rw [h]
  rfl

theorem literal_bind_of_apart {s t : String} (h : apart s t = true) (f : Unit → Reader β)
    (rest : List Char) : (literal s >>= f) (t.toList ++ rest) = none := by
  apply bind_of_none
  rw [literal, strip?_of_apart h, Option.map_none]

theorem natural_append (n : ℕ) {rest : List Char} (h : NoDigit rest) :
    natural (n.repr.toList ++ rest) = some (n, rest) := by
  rw [natural, Json.readDigits_repr_append n h, Option.map_some, Json.digitsValue_repr]

theorem natural_of_noDigit {cs : List Char} (h : NoDigit cs) : natural cs = none := by
  simp [natural, Json.readDigits, (Json.takeWhile_of_head? h).1]

theorem offset_append (o : Offset) {rest : List Char} (h : NoDigit rest) :
    offset (o.toNat.repr.toList ++ rest) = some (o, rest) := by
  rw [offset, bind_of_some (natural_append o.toNat h), Offset.ofNat?_toNat]
  rfl

end Reader

/-! ### Spans and extents -/

def Span.reader : Reader Span := do
  Reader.literal "["
  let start ← Reader.offset
  Reader.literal ", "
  let stop ← Reader.offset
  Reader.literal ")"
  (Span.ofBounds start stop).toOption

theorem Span.reader_display (s : Span) (rest : List Char) :
    Span.reader (s.display.toList ++ rest) = some (s, rest) := by
  simp only [Span.display, String.toList_append, List.append_assoc]
  -- Both numbers end where the text between them begins, and so the digits read are theirs.
  have hcomma : NoDigit (", ".toList ++ (s.stop.toNat.repr.toList ++ (")".toList ++ rest))) :=
    noDigit_cons rfl _
  have hclose : NoDigit (")".toList ++ rest) := noDigit_cons rfl _
  rw [Span.reader, Reader.literal_bind, Reader.bind_of_some (Reader.offset_append s.start hcomma),
    Reader.literal_bind, Reader.bind_of_some (Reader.offset_append s.stop hclose),
    Reader.literal_bind, Span.ofBounds_start_stop]
  rfl

def Extent.reader : Reader Extent := do
  Reader.literal "v"
  let version ← Reader.offset
  Reader.literal " old="
  let before ← Span.reader
  Reader.literal " new="
  let after ← Span.reader
  return ⟨version, before, after⟩

/-- **An extent is read back** from the line that shows it, whatever follows. -/
theorem Extent.reader_display (e : Extent) (rest : List Char) :
    Extent.reader (e.display.toList ++ rest) = some (e, rest) := by
  simp only [Extent.display, String.toList_append, List.append_assoc]
  have hold : NoDigit (" old=".toList ++ (e.before.display.toList ++
      (" new=".toList ++ (e.after.display.toList ++ rest)))) := noDigit_cons rfl _
  rw [Extent.reader, Reader.literal_bind,
    Reader.bind_of_some (Reader.offset_append e.version hold), Reader.literal_bind,
    Reader.bind_of_some (Span.reader_display e.before _), Reader.literal_bind,
    Reader.bind_of_some (Span.reader_display e.after _)]
  rfl

/-! ### Entries -/

namespace Entry

section Defs

/-- The kinds of entries, each with an opening of its own. -/
inductive Form where
  | attaching
  | clearing
  | ignoring
  | adopting
  | combined
  | took
  deriving DecidableEq, Repr

namespace Form

def all : List Form := [attaching, clearing, ignoring, adopting, combined, took]

/-- How an entry begins. -/
def opening : Form → String
  | attaching => "Attaching snapshots to "
  | clearing => "Clearing "
  | ignoring => "Ignoring empty change "
  | adopting => "Adopting "
  | combined => "Combined "
  | took => "Took pending change "

/-- What follows the opening of an entry. -/
def body : Form → Reader Entry
  | attaching => do
    let e ← Extent.reader
    Reader.literal " (old: "
    let m ← Reader.natural
    Reader.literal " chars, new: "
    let n ← Reader.natural
    Reader.literal " chars)"
    return .attaching e m n
  | clearing => do return .clearing (← Extent.reader)
  | ignoring => do return .ignoring (← Extent.reader)
  | adopting => do
    let o ← Extent.reader
    Reader.literal " into empty accumulator"
    return .adopting o
  | combined => do
    let o ← Extent.reader
    Reader.literal " into "
    return .combined o (← Extent.reader)
  | took => do return .took (← Extent.reader)

end Form

def reader : Reader Entry :=
  Reader.choose Form.opening Form.body Form.all

/-- The entry that has a given text. -/
def read? (text : String) : Option Entry :=
  match reader text.toList with
  | some (e, []) => some e
  | _ => none

end Defs

theorem Form.openings_apart (f g : Form) (h : f ≠ g) :
    Reader.apart f.opening g.opening = true := by
  cases f <;> cases g <;> first | exact absurd rfl h | decide

theorem reader_append (f : Form) (opening : String) (h : f.opening = opening) (rest : List Char) :
    reader (opening.toList ++ rest) = f.body rest := by
  have hall : f ∈ Form.all := by cases f <;> decide
  rw [← h]
  exact Reader.choose_of_mem Form.openings_apart hall rest

theorem reader_display (e : Extent) : Extent.reader e.display.toList = some (e, []) := by
  have h := Extent.reader_display e []
  rwa [List.append_nil] at h

theorem reader_text (e : Entry) : reader e.text.toList = some (e, []) := by
  cases e with
  | attaching e m n =>
    have hmid : NoDigit (" chars, new: ".toList ++ (n.repr.toList ++ " chars)".toList)) :=
      noDigit_cons rfl _
    have hend : NoDigit (" chars)".toList) := noDigit_cons rfl _
    show reader ("Attaching snapshots to " ++ e.display ++ " (old: " ++ m.repr ++ " chars, new: "
      ++ n.repr ++ " chars)").toList = _
    simp only [String.toList_append, List.append_assoc]
    rw [reader_append .attaching "Attaching snapshots to " rfl, Form.body,
      Reader.bind_of_some (Extent.reader_display e _), Reader.literal_bind,
      Reader.bind_of_some (Reader.natural_append m hmid), Reader.literal_bind,
      Reader.bind_of_some (Reader.natural_append n hend)]
    exact Reader.bind_of_some (Reader.literal_append _ [])
  | clearing e =>
    show reader ("Clearing " ++ e.display).toList = _
    rw [String.toList_append, reader_append .clearing "Clearing " rfl]
    exact Reader.bind_of_some (reader_display e)
  | ignoring o =>
    show reader ("Ignoring empty change " ++ o.display).toList = _
    rw [String.toList_append, reader_append .ignoring "Ignoring empty change " rfl]
    exact Reader.bind_of_some (reader_display o)
  | adopting o =>
    show reader ("Adopting " ++ o.display ++ " into empty accumulator").toList = _
    simp only [String.toList_append, List.append_assoc]
    rw [reader_append .adopting "Adopting " rfl, Form.body,
      Reader.bind_of_some (Extent.reader_display o _)]
    exact Reader.bind_of_some (Reader.literal_append _ [])
  | combined o e =>
    show reader ("Combined " ++ o.display ++ " into " ++ e.display).toList = _
    simp only [String.toList_append, List.append_assoc]
    rw [reader_append .combined "Combined " rfl, Form.body,
      Reader.bind_of_some (Extent.reader_display o _), Reader.literal_bind]
    exact Reader.bind_of_some (reader_display e)
  | took e =>
    show reader ("Took pending change " ++ e.display).toList = _
    rw [String.toList_append, reader_append .took "Took pending change " rfl]
    exact Reader.bind_of_some (reader_display e)

/-- **An entry is read back** from its text. -/
theorem read?_text (e : Entry) : read? e.text = some e := by
  rw [read?, reader_text]

end Entry

end DirtyRegion
