import Mathlib.Data.List.Perm.Basic
import Mathlib.Data.Nat.Notation
import DirtyRegion.Offset

/-!
# The grammar of spans in JSON

Which texts denote which bounds, said of the texts alone and not of how they are read. A text is a
list of characters, and the grammar goes from characters to tokens to whole values.

- `Blanks` and `Padded` say where blanks may stand.
- `Spelling` is one character inside of quotes, `Spells` all of them.
- `OffsetLiteral` is an offset as it may be written.
- `Member`, `Members` are what stands between two braces.
- `Denotes` is the array or the object that has two given bounds.
-/

namespace DirtyRegion.Json

/-! ### Blanks -/

/-- There is nothing but blanks, tabs, line feeds and carriage returns. -/
def Blanks (ws : List Char) : Prop :=
  ∀ c ∈ ws, c = ' ' ∨ c = '\t' ∨ c = '\n' ∨ c = '\r'

/-- A text with blanks around it. -/
inductive Padded (P : List Char → Prop) : List Char → Prop
  | mk {ws cs ws' : List Char} (front : Blanks ws) (core : P cs) (back : Blanks ws') :
      Padded P (ws ++ (cs ++ ws'))

/-! ### Strings -/

/-- A hexadecimal digit, in either case, and its value. -/
def HexDigit (c : Char) (n : ℕ) : Prop :=
  "0123456789abcdef".toList[n]? = some c ∨ "0123456789ABCDEF".toList[n]? = some c

/-- Four hexadecimal digits and their value. -/
inductive HexGroup : List Char → ℕ → Prop
  | mk {a b c d : Char} {i j k l : ℕ} (ha : HexDigit a i) (hb : HexDigit b j) (hc : HexDigit c k)
      (hd : HexDigit d l) : HexGroup [a, b, c, d] (((i * 16 + j) * 16 + k) * 16 + l)

/-- What may follow a backslash, and what it stands for. -/
def letters : List (Char × Char) :=
  [('"', '"'), ('\\', '\\'), ('/', '/'), ('b', '\x08'), ('f', '\x0c'), ('n', '\n'), ('r', '\r'),
    ('t', '\t')]

/-- A character inside of quotes, as it may be written. -/
inductive Spelling : List Char → Char → Prop
  | plain {c : Char} (quote : c ≠ '"') (backslash : c ≠ '\\') (control : 0x20 ≤ c.toNat) :
      Spelling [c] c
  | letter {l c : Char} (h : (l, c) ∈ letters) : Spelling ['\\', l] c
  | hex {ds : List Char} {c : Char} (h : HexGroup ds c.toNat) : Spelling ('\\' :: 'u' :: ds) c
  /-- A character past the first 65536 takes a high and a low surrogate. -/
  | surrogates {hs ls : List Char} {high low : ℕ} {c : Char} (hhs : HexGroup hs high)
      (hls : HexGroup ls low) (hhigh : 0xd800 ≤ high ∧ high ≤ 0xdbff)
      (hlow : 0xdc00 ≤ low ∧ low ≤ 0xdfff)
      (hc : c.toNat = 0x10000 + (high - 0xd800) * 0x400 + (low - 0xdc00)) :
      Spelling ('\\' :: 'u' :: (hs ++ '\\' :: 'u' :: ls)) c

/-- The characters between two quotes, and the text that they spell. -/
inductive Spells : List Char → List Char → Prop
  | nil : Spells [] []
  | cons {w ws : List Char} {c : Char} {cs : List Char} (h : Spelling w c) (hs : Spells ws cs) :
      Spells (w ++ ws) (c :: cs)

/-! ### Offsets -/

/-- An offset in digits: a zero alone, or digits that begin with no zero. -/
structure OffsetLiteral (n : Offset) (ds : List Char) : Prop where
  ne_nil : ds ≠ []
  digits : ∀ d ∈ ds, d.isDigit = true
  no_leading_zero : ds.head? = some '0' → ds = ['0']
  value : Nat.ofDigitChars 10 ds 0 = n.toNat

/-! ### Bounds -/

/-- A member of an object: a key in quotes, and an offset. -/
inductive Member (key : String) (n : Offset) : List Char → Prop
  | mk {w ws ws' ds : List Char} (hkey : Spells w key.toList) (front : Blanks ws)
      (back : Blanks ws') (value : OffsetLiteral n ds) :
      Member key n ('"' :: (w ++ '"' :: (ws ++ ':' :: (ws' ++ ds))))

/-- Members with commas between them. -/
inductive Members : List (String × Offset) → List Char → Prop
  | last {key : String} {n : Offset} {m : List Char} (h : Padded (Member key n) m) :
      Members [(key, n)] m
  | more {key : String} {n : Offset} {m : List Char} {members : List (String × Offset)}
      {cs : List Char} (h : Padded (Member key n) m) (hs : Members members cs) :
      Members ((key, n) :: members) (m ++ ',' :: cs)

/-- An array of two offsets, or an object with two members, in either order. -/
inductive Denotes (start stop : Offset) : List Char → Prop
  | array {a b : List Char} (ha : Padded (OffsetLiteral start) a)
      (hb : Padded (OffsetLiteral stop) b) :
      Denotes start stop ('[' :: (a ++ ',' :: (b ++ [']'])))
  | object {members : List (String × Offset)} {cs : List Char} (h : Members members cs)
      (hperm : members.Perm [("start", start), ("end", stop)]) :
      Denotes start stop ('\x7b' :: (cs ++ ['\x7d']))

end DirtyRegion.Json
