import DirtyRegion.Decimal.Shortest

/-!
# Decimal layouts — digits, point and exponent

A `Decimal.Layout` says which leading exponents are written in positional notation; all others take
an exponent mark. In positional notation there is always a point with a digit on both sides. With an
exponent mark the point stands after the first digit, and only if more digits follow; the exponent
has a sign and no leading zeros.
-/

namespace DirtyRegion.Decimal

/-- Which leading exponents are written in positional notation. -/
structure Layout where
  least : Int
  greatest : Int
  deriving DecidableEq, Repr

/-- The digits without the zeros at the end. -/
def significant (d : Decimal) : List Char :=
  ((Nat.toDigits 10 d.digits).reverse.dropWhile (· == '0')).reverse

/-- The power of ten at the first digit. -/
def leading (d : Decimal) : Int :=
  d.exponent + (Nat.toDigits 10 d.digits).length - 1

def zeros (n : Nat) : List Char :=
  List.replicate n '0'

/-- Digits whose first one stands at `10 ^ e`, in positional notation. -/
def positional (e : Int) (ds : List Char) : List Char :=
  if e < 0 then
    '0' :: '.' :: zeros (-e - 1).toNat ++ ds
  else
    let whole := e.toNat + 1
    let rest := ds.drop whole
    ds.take whole ++ zeros (whole - ds.length) ++ '.' :: if rest.isEmpty then ['0'] else rest

/-- Digits whose first one stands at `10 ^ e`, with an exponent mark. -/
def scientific (e : Int) (ds : List Char) : List Char :=
  let sign := if e < 0 then '-' else '+'
  let mantissa := match ds with
    | [] => []
    | [d] => [d]
    | d :: rest => d :: '.' :: rest
  mantissa ++ 'e' :: sign :: Nat.toDigits 10 e.natAbs

/-- The decimal as a text. -/
def text (l : Layout) (d : Decimal) : String :=
  if d.digits = 0 then "0.0"
  else if l.least ≤ d.leading ∧ d.leading ≤ l.greatest then
    String.ofList (positional d.leading d.significant)
  else
    String.ofList (scientific d.leading d.significant)

end DirtyRegion.Decimal

namespace DirtyRegion.Binary64

/-- The number as a text: its sign and its shortest decimal. -/
def text (l : Decimal.Layout) (x : Binary64) : String :=
  (if x.negative then "-" else "") ++ x.shortest.text l

/-! ### Both notations at a glance -/

example : (Binary64.mk false 1 (-1074) false).text ⟨-5, 15⟩ = "5e-324" := by decide +kernel
example : (Binary64.mk true 0 (-1074) false).text ⟨-5, 15⟩ = "-0.0" := by decide +kernel
example : (Binary64.mk false hiddenBit 12 true).text ⟨-5, 15⟩ = "1.8446744073709552e+19" := by
  decide +kernel
example : (Binary64.mk false (5 * hiddenBit / 4) (-51) false).text ⟨-5, 15⟩ = "2.5" := by
  decide +kernel

end DirtyRegion.Binary64
