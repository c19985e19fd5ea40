/-!
# Blanks between JSON tokens

JSON allows four characters between its tokens: the blank, the tab, the line feed and the carriage
return. `skipBlanks` drops them from the front of a text.

Main statement: `skipBlanks_append`, blanks in front of a text do not count.
-/

namespace DirtyRegion.Json

/-- The character may stand between two tokens. -/
def isBlank (c : Char) : Bool :=
  c == ' ' || c == '\t' || c == '\n' || c == '\r'

/-- The text from its first character on that is no blank. -/
def skipBlanks (cs : List Char) : List Char :=
  cs.dropWhile isBlank

@[simp] theorem skipBlanks_nil : skipBlanks [] = [] := rfl

theorem skipBlanks_cons_of_isBlank {c : Char} (h : isBlank c = true) (cs : List Char) :
    skipBlanks (c :: cs) = skipBlanks cs :=
  List.dropWhile_cons_of_pos h

theorem skipBlanks_cons_of_not_isBlank {c : Char} (h : isBlank c = false) (cs : List Char) :
    skipBlanks (c :: cs) = c :: cs :=
  List.dropWhile_cons_of_neg (by simp [h])

theorem skipBlanks_append {ws : List Char} (h : ∀ c ∈ ws, isBlank c = true) (cs : List Char) :
    skipBlanks (ws ++ cs) = skipBlanks cs := by
  induction ws with
  | nil => rfl
  | cons c ws ih =>
    rw [List.cons_append, skipBlanks_cons_of_isBlank (h c (List.mem_cons_self ..))]
    exact ih fun d hd => h d (List.mem_cons_of_mem _ hd)

end DirtyRegion.Json
