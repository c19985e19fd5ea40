/-!
# Offsets — positions and lengths in a text

An offset counts characters from the start of a text, and a length counts characters. Both are
64-bit words, `Offset`. A distance has a sign and may not fit: `signed?` keeps an integer only when
it lies in the signed 64-bit range.

Main statements: `toNat_add_of_lt` and `add_lt_of_le`, a sum is either the sum of the numbers or has
wrapped to one that lies before its first part, and `signed?_eq_some_iff`, which integers are kept.
-/

namespace DirtyRegion

/-- A position in a text, or a number of characters. -/
abbrev Offset := UInt64

/-- How many offsets there are: the first natural number that is no offset. -/
def offsetCount : Nat := 0x10000000000000000

/-- How many distances there are below zero, and how many there are from zero on. -/
def distanceCount : Nat := 0x8000000000000000

namespace Offset

/-- The offset `n` when `n` is small enough to be one. -/
def ofNat? (n : Nat) : Option Offset :=
  if n < offsetCount then some (UInt64.ofNat n) else none

/-- The distance `n` when it lies between `-2 ^ 63` and `2 ^ 63 - 1`. -/
def signed? (n : Int) : Option Int :=
  if -distanceCount ≤ n ∧ n < distanceCount then some n else none

/-! ### Words as natural numbers -/

theorem toNat_lt_count (o : Offset) : o.toNat < offsetCount :=
  UInt64.toNat_lt o

/-- A sum that is still an offset does not wrap. -/
theorem toNat_add_of_lt {a b : Offset} (h : a.toNat + b.toNat < offsetCount) :
    (a + b).toNat = a.toNat + b.toNat := by
  rw [UInt64.toNat_add]
  exact Nat.mod_eq_of_lt h

theorem le_add_of_lt {a b : Offset} (h : a.toNat + b.toNat < offsetCount) : a ≤ a + b := by
  rw [UInt64.le_iff_toNat_le, toNat_add_of_lt h]
  exact Nat.le_add_right _ _

theorem toNat_add_mod (a b : Offset) : (a + b).toNat = (a.toNat + b.toNat) % offsetCount :=
  UInt64.toNat_add a b

/-- A sum that is no offset wraps to one that lies before its first part. -/
theorem add_lt_of_le {a b : Offset} (h : offsetCount ≤ a.toNat + b.toNat) : a + b < a := by
  have ha := toNat_lt_count a
  have hb := toNat_lt_count b
  rw [UInt64.lt_iff_toNat_lt, toNat_add_mod, Nat.mod_eq_sub_mod h, Nat.mod_eq_of_lt] <;> omega

theorem ofNat?_toNat (o : Offset) : ofNat? o.toNat = some o := by
  rw [ofNat?, if_pos (toNat_lt_count o), UInt64.ofNat_toNat]

theorem ofNat?_eq_some_iff {n : Nat} {o : Offset} : ofNat? n = some o ↔ o.toNat = n := by
  constructor
  · intro h
    unfold ofNat? at h
    split at h
    · rename_i hn
      obtain rfl := Option.some.inj h
      exact UInt64.toNat_ofNat_of_lt' hn
    · cases h
  · rintro rfl
    exact ofNat?_toNat o

theorem ofNat?_eq_none_iff {n : Nat} : ofNat? n = none ↔ offsetCount ≤ n := by
  unfold ofNat?
  split <;> simp <;> omega

/-! ### Distances -/

theorem signed?_eq_some_iff {n d : Int} :
    signed? n = some d ↔ d = n ∧ -distanceCount ≤ n ∧ n < distanceCount := by
  unfold signed?
  split <;> simp <;> grind

theorem signed?_natCast_iff {n : Nat} {d : Int} :
    signed? n = some d ↔ d = n ∧ n < distanceCount := by
  rw [signed?_eq_some_iff]
  omega

/-- Two numbers that are distances have a difference that is one. -/
theorem signed?_sub_of_lt {m n : Nat} (hm : m < distanceCount) (hn : n < distanceCount) :
    signed? ((n : Int) - m) = some ((n : Int) - m) :=
  signed?_eq_some_iff.mpr ⟨rfl, by omega, by omega⟩

end Offset

end DirtyRegion
