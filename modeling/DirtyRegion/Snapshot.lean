import DirtyRegion.Text.Plain
import DirtyRegion.Text.Rope

/-!
# Snapshots — texts that never change, told apart by identity

A `Snapshot` is a text at one moment. Two snapshots are the same when they have the same number, and
what they hold plays no part in that: the same text taken twice makes two snapshots.
-/

namespace DirtyRegion

/-- How a snapshot holds its text. -/
inductive Content where
  | plain (s : String)
  | rope (r : Rope)

instance : TextSource Content where
  length
    | .plain s => TextSource.length s
    | .rope r => TextSource.length r
  charAt?
    | .plain s => TextSource.charAt? s
    | .rope r => TextSource.charAt? r
  text?
    | .plain s => TextSource.text? s
    | .rope r => TextSource.text? r

instance : LawfulTextSource Content where
  toList
    | .plain s => LawfulTextSource.toList s
    | .rope r => LawfulTextSource.toList r
  length_eq
    | .plain s => LawfulTextSource.length_eq s
    | .rope r => LawfulTextSource.length_eq r
  charAt?_eq
    | .plain s => LawfulTextSource.charAt?_eq s
    | .rope r => LawfulTextSource.charAt?_eq r
  text?_eq
    | .plain s => LawfulTextSource.text?_eq s
    | .rope r => LawfulTextSource.text?_eq r

/-- A text at one moment. -/
structure Snapshot where
  /-- The number that tells the snapshot from all others. -/
  id : Nat
  content : Content

namespace Snapshot

instance : BEq Snapshot := ⟨fun s t => s.id == t.id⟩

instance : TextSource Snapshot where
  length s := TextSource.length s.content
  charAt? s := TextSource.charAt? s.content
  text? s := TextSource.text? s.content

instance : LawfulTextSource Snapshot where
  toList s := LawfulTextSource.toList s.content
  length_eq s := LawfulTextSource.length_eq s.content
  charAt?_eq s := LawfulTextSource.charAt?_eq s.content
  text?_eq s := LawfulTextSource.text?_eq s.content

def length (s : Snapshot) : Nat :=
  TextSource.length s

/-! ### Sameness -/

theorem beq_iff {s t : Snapshot} : (s == t) = true ↔ s.id = t.id := by
  show (s.id == t.id) = true ↔ _
  exact beq_iff_eq

instance : EquivBEq Snapshot where
  rfl := beq_iff.mpr rfl
  symm h := beq_iff.mpr (beq_iff.mp h).symm
  trans h₁ h₂ := beq_iff.mpr ((beq_iff.mp h₁).trans (beq_iff.mp h₂))

end Snapshot

end DirtyRegion
