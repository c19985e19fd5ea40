import DirtyRegion.Text.Source

/-!
# Ropes — a text as a tree of chunks

A `Rope` keeps a long text in chunks at the leaves of a binary tree. Every branch carries the number
of characters on either side, in its type, so that a search goes down one side only.

- `Rope.Tree n` is a tree of `n` characters, with `toList`, `get?` and `slice`.
- `Rope.ofString` cuts a text in half until the pieces are no longer than a chunk.

Main statements: `Tree.length_toList`, `Tree.get?_eq` and `Tree.slice_eq` compare a tree with the
list of its characters, so that ropes are lawful text sources, and `toList_ofString` says that
cutting keeps the characters.
-/

namespace DirtyRegion

namespace Rope

/-- A tree of chunks with `n` characters in all. -/
inductive Tree : Nat → Type where
  | leaf (chunk : List Char) : Tree chunk.length
  | node {m n : Nat} (left : Tree m) (right : Tree n) : Tree (m + n)

namespace Tree

def toList {n : Nat} : Tree n → List Char
  | leaf chunk => chunk
  | node left right => left.toList ++ right.toList

/-- The character with number `i`. -/
def get? {n : Nat} : Tree n → Nat → Option Char
  | leaf chunk, i => chunk[i]?
  | @node m _ left right, i => if i < m then left.get? i else right.get? (i - m)

/-- The characters with numbers from `i` up to `j`. -/
def slice {n : Nat} : Tree n → Nat → Nat → List Char
  | leaf chunk, i, j => (chunk.take j).drop i
  | @node m _ left right, i, j =>
    if j ≤ m then left.slice i j
    else if m ≤ i then right.slice (i - m) (j - m)
    else left.slice i m ++ right.slice 0 (j - m)

/-! ### Trees and the lists of their characters -/

@[simp] theorem length_toList {n : Nat} (t : Tree n) : t.toList.length = n := by
  induction t with
  | leaf chunk => rfl
  | node left right ihl ihr => simp [toList, ihl, ihr]

theorem get?_eq {n : Nat} (t : Tree n) (i : Nat) : t.get? i = t.toList[i]? := by
  induction t generalizing i with
  | leaf chunk => rfl
  | node left right ihl ihr =>
    rw [get?, toList]
    split
    · rename_i h
      rw [ihl, List.getElem?_append_left (by simpa using h)]
    · rename_i h
      rw [ihr, List.getElem?_append_right (by simpa using h), length_toList]

theorem slice_eq {n : Nat} (t : Tree n) (i j : Nat) : t.slice i j = (t.toList.take j).drop i := by
  induction t generalizing i j with
  | leaf chunk => rfl
  | @node m n left right ihl ihr =>
    rw [slice, toList]
    have hl := left.length_toList
    split
    · rename_i h
      rw [ihl, List.take_append_of_le_length (by omega)]
    · rename_i h
      -- From here on the slice goes past the left side, and takes part of the right one.
      have hj : List.take j (left.toList ++ right.toList) =
          left.toList ++ right.toList.take (j - m) := by
        rw [List.take_append, List.take_of_length_le (by omega), hl]
      split
      · rename_i hi
        have hd : left.toList.drop i = [] := List.drop_of_length_le (by omega)
        rw [ihr, hj, List.drop_append, hd, hl, List.nil_append]
      · rename_i hi
        rw [ihl, ihr, hj, List.drop_append_of_le_length (by omega),
          List.take_of_length_le (by omega)]
        rfl

end Tree

end Rope

/-- A text as a tree of chunks. -/
structure Rope where
  length : Nat
  tree : Rope.Tree length

namespace Rope

def toList (r : Rope) : List Char :=
  r.tree.toList

def chunk (cs : List Char) : Rope :=
  ⟨cs.length, .leaf cs⟩

def append (r s : Rope) : Rope :=
  ⟨r.length + s.length, .node r.tree s.tree⟩

/-- The characters cut in half as often as `depth` says. -/
def ofListAt : Nat → List Char → Rope
  | 0, cs => chunk cs
  | depth + 1, cs =>
    let half := cs.length / 2
    append (ofListAt depth (cs.take half)) (ofListAt depth (cs.drop half))

/-- How many characters a chunk may hold. -/
def chunkSize : Nat := 32

/-- How often `n` characters have to be cut in half until no piece is longer than a chunk. -/
def depthFor (n : Nat) : Nat :=
  if n ≤ chunkSize then 0 else Nat.log2 ((n - 1) / chunkSize) + 1

/-- A text cut in half until no piece is longer than a chunk. -/
def ofString (s : String) : Rope :=
  ofListAt (depthFor s.length) s.toList

/-! ### Cutting keeps the text -/

@[simp] theorem toList_append (r s : Rope) : (r.append s).toList = r.toList ++ s.toList := rfl

@[simp] theorem toList_chunk (cs : List Char) : (chunk cs).toList = cs := rfl

theorem length_eq (r : Rope) : r.length = r.toList.length :=
  r.tree.length_toList.symm

@[simp] theorem toList_ofListAt (depth : Nat) (cs : List Char) :
    (ofListAt depth cs).toList = cs := by
  induction depth generalizing cs with
  | zero => rfl
  | succ depth ih => rw [ofListAt, toList_append, ih, ih, List.take_append_drop]

@[simp] theorem toList_ofString (s : String) : (ofString s).toList = s.toList :=
  toList_ofListAt _ _

end Rope

instance : TextSource Rope where
  length r := r.length
  charAt? r i := r.tree.get? i.toNat
  text? r s :=
    if s.stop.toNat ≤ r.length then
      some (String.ofList (r.tree.slice s.start.toNat s.stop.toNat))
    else none

instance : LawfulTextSource Rope where
  toList r := r.toList
  length_eq r := r.length_eq
  charAt?_eq r i := r.tree.get?_eq i.toNat
  text?_eq r s := by
    show (if s.stop.toNat ≤ r.length then _ else _) = _
    rw [Span.select?, ← r.length_eq]
    split
    · exact congrArg (some ∘ String.ofList) (r.tree.slice_eq _ _)
    · rfl

end DirtyRegion
