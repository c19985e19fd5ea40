/-!
# Double-precision numbers as exact values

A finite double is `significand * 2 ^ exponent`, with a sign. `Binary64.ofFloat?` reads sign,
significand and exponent off the 64 bits, and refuses infinities and values that are no number. The
field `thin` marks the doubles whose lower neighbour is only half as far away as the upper one:
those at the foot of a binade.
-/

namespace DirtyRegion

/-- A finite double-precision number. -/
structure Binary64 where
  /-- The sign bit, which zero has as well. -/
  negative : Bool
  significand : Nat
  exponent : Int
  /-- The gap to the lower neighbour is half the gap to the upper one. -/
  thin : Bool
  deriving DecidableEq, Repr

namespace Binary64

/-- The leading binary digit of a number at full precision, which the fraction leaves out. -/
def hiddenBit : Nat := 0x10000000000000

/-- The number with a given bit pattern: a sign bit, eleven bits of exponent and 52 of fraction. -/
def ofBits? (bits : UInt64) : Option Binary64 :=
  let negative := bits >>> 63 == 1
  let biased := (bits >>> 52).toNat % 0x800
  let fraction := bits.toNat % hiddenBit
  if biased = 0x7ff then none
  else if biased = 0 then some ⟨negative, fraction, -1074, false⟩
  else some ⟨negative, hiddenBit + fraction, (biased : Int) - 1075, fraction = 0 && 1 < biased⟩

/-- The number that a float stands for, if it is finite. -/
def ofFloat? (x : Float) : Option Binary64 :=
  ofBits? x.toBits

example : ofBits? 0x3ff0000000000000 = some ⟨false, hiddenBit, -52, true⟩ := by decide
example : ofBits? 0x8000000000000001 = some ⟨true, 1, -1074, false⟩ := by decide
example : ofBits? 0x7ff0000000000000 = none := by decide

end Binary64

end DirtyRegion
