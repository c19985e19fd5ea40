import DirtyRegion.Span.Basic

/-!
# Text sources — read-only access to a text by character

A `TextSource` answers three questions about a text: how many characters it has, which character
stands at an offset, and which characters a span holds. Offsets count characters, whatever the width
of a character in the text's storage. What lies past the end is answered by `none`.

A `LawfulTextSource` is a text source that has a list of characters behind it and answers all three
questions as that list does. So two lawful sources with the same characters cannot be told apart.
-/

namespace DirtyRegion

/-- Read-only access to a text by character. -/
class TextSource (α : Type) where
  length : α → Nat
  /-- The character at an offset, if the text reaches that far. -/
  charAt? : α → Offset → Option Char
  /-- The characters of a span, if the text reaches to its end. -/
  text? : α → Span → Option String

namespace TextSource

variable {α : Type} [TextSource α]

def isEmpty (t : α) : Bool :=
  length t == 0

end TextSource

/-- The characters of a span in a list, if the list reaches to the end of the span. -/
def Span.select? (s : Span) (cs : List Char) : Option (List Char) :=
  if s.stop.toNat ≤ cs.length then some ((cs.take s.stop.toNat).drop s.start.toNat) else none

/-- A text source that answers as a list of characters does. -/
class LawfulTextSource (α : Type) [TextSource α] where
  toList : α → List Char
  length_eq : ∀ t : α, TextSource.length t = (toList t).length
  charAt?_eq : ∀ (t : α) (i : Offset), TextSource.charAt? t i = (toList t)[i.toNat]?
  text?_eq : ∀ (t : α) (s : Span),
    TextSource.text? t s = (s.select? (toList t)).map String.ofList

end DirtyRegion
