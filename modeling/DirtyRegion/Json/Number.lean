import DirtyRegion.Decimal.Binary64
import DirtyRegion.Offset

/-!
# JSON numbers — the literal and its value

A number literal has a sign, a whole part without needless zeros in front, and perhaps a fraction
and an exponent. `readNumeral` takes the literal apart, and `Numeral.value?` gives its value:

- a literal without fraction and exponent is a whole number when it lies between `-2 ^ 63` and
  `2 ^ 64 - 1`, except that `-0` is a double;
- every other literal is a double. Its leading digits are taken up as far as a 64-bit word holds
  them, the word becomes a double, and that is scaled by a power of ten in double arithmetic. A
  literal too large for a double has no value.

Main statement: `wordValue?_eq_some_iff`, a word holds the number that digits spell exactly when
that number is an offset.
-/

namespace DirtyRegion.Json

/-! ### Digits -/

def digitValue (c : Char) : Nat :=
  c.toNat - '0'.toNat

/-- The whole number that digits spell, most significant first. -/
def digitsValue (ds : List Char) : Nat :=
  ds.foldl (fun n c => 10 * n + digitValue c) 0

/-- One or more digits at the front, and what follows them. -/
def readDigits (cs : List Char) : Option (List Char × List Char) :=
  match cs.takeWhile Char.isDigit with
  | [] => none
  | ds => some (ds, cs.dropWhile Char.isDigit)

/-! ### Literals -/

/-- A number literal, taken apart. -/
structure Numeral where
  negative : Bool
  whole : List Char
  fraction : Option (List Char)
  /-- The exponent: it has a minus sign, and its digits. -/
  exponent : Option (Bool × List Char)
  deriving DecidableEq, Repr

/-- The digits before the point: a zero alone, or digits that start with no zero. -/
def readWhole (cs : List Char) : Option (List Char × List Char) :=
  match readDigits cs with
  | some ('0' :: _ :: _, _) => none
  | r => r

/-- The digits after the point, if there is a point. -/
def readFraction : List Char → Option (Option (List Char) × List Char)
  | '.' :: cs => (readDigits cs).map fun r => (some r.1, r.2)
  | cs => some (none, cs)

/-- The sign of an exponent, and what follows it. -/
def readSign : List Char → Bool × List Char
  | '-' :: cs => (true, cs)
  | '+' :: cs => (false, cs)
  | cs => (false, cs)

/-- The exponent, if there is an exponent mark. -/
def readExponent : List Char → Option (Option (Bool × List Char) × List Char)
  | [] => some (none, [])
  | c :: cs =>
    if c == 'e' || c == 'E' then
      let (negative, cs) := readSign cs
      (readDigits cs).map fun r => (some (negative, r.1), r.2)
    else some (none, c :: cs)

/-- A number literal without a minus sign in front. -/
def readUnsigned (negative : Bool) (cs : List Char) : Option (Numeral × List Char) := do
  let (whole, cs) ← readWhole cs
  let (fraction, cs) ← readFraction cs
  let (exponent, cs) ← readExponent cs
  some (⟨negative, whole, fraction, exponent⟩, cs)

/-- A number literal at the front, and what follows it. -/
def readNumeral : List Char → Option (Numeral × List Char)
  | '-' :: cs => readUnsigned true cs
  | cs => readUnsigned false cs

/-! ### Values -/

/-- The value of a number literal. -/
inductive Number where
  | natural (n : Offset)
  /-- The whole number `-n`, for `n` from 1 to `2 ^ 63`. -/
  | negative (n : Nat)
  | real (x : Binary64)
  deriving DecidableEq, Repr

/-- Takes digits up into a word until the first one that it cannot hold. Also gives the digits
left. -/
def absorb (word : Nat) : List Char → Nat × List Char
  | [] => (word, [])
  | d :: ds =>
    if 10 * word + digitValue d < offsetCount then absorb (10 * word + digitValue d) ds
    else (word, d :: ds)

/-- The whole number that digits spell, if a word holds it. -/
def wordValue? (ds : List Char) : Option Nat :=
  match absorb 0 ds with
  | (word, []) => some word
  | _ => none

/-- The double `10 ^ n`. -/
def tenPower (n : Nat) : Float :=
  Float.ofScientific 1 false n

/-- The greatest power of ten that a double can hold. -/
def topPower : Nat := 308

/-- The double multiplied by `10 ^ n`, if that is finite. -/
def scaleUp (x : Float) (n : Nat) : Option Binary64 :=
  if n ≤ topPower then Binary64.ofFloat? (x * tenPower n)
  else if x == 0 then Binary64.ofFloat? x
  else none

/-- The double divided by `10 ^ n`, by the greatest power first as often as that takes. -/
def scaleDown (x : Float) (n : Nat) : Float :=
  if n ≤ topPower then x / tenPower n
  else if x == 0 then x
  else scaleDown (x / tenPower topPower) (n - topPower)
termination_by n
decreasing_by simp only [topPower] at *; omega

namespace Numeral

/-- The literal's leading digits as a word, and the power of ten that goes with them. Of an exponent
that no word holds the leading digits are enough: it is out of reach either way. -/
def parts (l : Numeral) : Nat × Int :=
  let fraction := l.fraction.getD []
  let (word, dropped) := absorb 0 l.whole
  let (word, unread) := absorb word fraction
  let written : Int := match l.exponent with
    | none => 0
    | some (negative, ds) => if negative then -(absorb 0 ds).1 else (absorb 0 ds).1
  -- Each digit of the whole part that the word does not hold is worth a ten, and each one of the
  -- fraction that it does hold a tenth.
  (word, dropped.length - (fraction.length - unread.length) + written)

/-- The literal as a double, if it is not too large. -/
def real? (l : Numeral) : Option Binary64 :=
  let (word, power) := l.parts
  let x := (UInt64.ofNat word).toFloat
  let size := if 0 ≤ power then scaleUp x power.toNat
    else Binary64.ofFloat? (scaleDown x (-power).toNat)
  size.map fun y => { y with negative := l.negative }

/-- The literal as a whole number, if it is written as one and is of the right size. -/
def integer? (l : Numeral) : Option Number :=
  if l.fraction.isSome || l.exponent.isSome then none
  else
    (wordValue? l.whole).bind fun n =>
      if l.negative then
        if 0 < n ∧ n ≤ distanceCount then some (.negative n) else none
      else (Offset.ofNat? n).map Number.natural

/-- The value of the literal, unless it is too large for a double. -/
def value? (l : Numeral) : Option Number :=
  match l.integer? with
  | some n => some n
  | none => l.real?.map Number.real

end Numeral

/-! ### Words and the numbers that digits spell -/

theorem le_foldl_digits (w : Nat) (ds : List Char) :
    w ≤ ds.foldl (fun n c => 10 * n + digitValue c) w := by
  induction ds generalizing w with
  | nil => exact Nat.le_refl w
  | cons d ds ih =>
    have h := ih (10 * w + digitValue d)
    rw [List.foldl_cons]
    omega

theorem absorb_of_lt {w : Nat} {ds : List Char}
    (h : ds.foldl (fun n c => 10 * n + digitValue c) w < offsetCount) :
    absorb w ds = (ds.foldl (fun n c => 10 * n + digitValue c) w, []) := by
  induction ds generalizing w with
  | nil => rfl
  | cons d ds ih =>
    rw [List.foldl_cons] at h
    have hd := le_foldl_digits (10 * w + digitValue d) ds
    rw [absorb, if_pos (Nat.lt_of_le_of_lt hd h), ih h, List.foldl_cons]

theorem foldl_of_absorb {w v : Nat} {ds : List Char} (hw : w < offsetCount)
    (h : absorb w ds = (v, [])) :
    ds.foldl (fun n c => 10 * n + digitValue c) w = v ∧ v < offsetCount := by
  induction ds generalizing w with
  | nil =>
    cases h
    exact ⟨rfl, hw⟩
  | cons d ds ih =>
    rw [absorb] at h
    split at h
    · rename_i hd
      exact ih hd h
    · cases h

theorem wordValue?_eq_some_iff {ds : List Char} {n : Nat} :
    wordValue? ds = some n ↔ digitsValue ds = n ∧ n < offsetCount := by
  constructor
  · intro h
    unfold wordValue? at h
    split at h
    · rename_i word ha
      cases h
      exact foldl_of_absorb (by decide) ha
    · cases h
  · rintro ⟨rfl, hn⟩
    rw [wordValue?, absorb_of_lt hn]
    rfl

/-- A number at the front, and what follows it. -/
def readNumber (cs : List Char) : Option (Number × List Char) := do
  let (l, cs) ← readNumeral cs
  let n ← l.value?
  some (n, cs)

end DirtyRegion.Json
