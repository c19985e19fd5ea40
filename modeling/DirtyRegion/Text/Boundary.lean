/-!
# Character boundaries — from character counts to byte offsets

A string is stored as bytes, and a character takes from one to four of them. `byteOffset? s k` is
the byte offset at which the character with number `k` begins; one past the last character stands
the byte offset of the end. `sliceBytes?` cuts a string at two byte offsets, and only at places
where a character begins or the string ends.

Main statements: `byteOffset?_eq_some_iff`, by which the byte offset of `k` is the total width of
the first `k` characters, and `sliceBytes?_byteWidth`, by which a cut at two such places is never
refused and gives the characters between them.
-/

namespace DirtyRegion.Text

/-- The byte offset at which the character with number `k` begins, when the first one begins at
`b`. -/
def byteOffsetFrom (b : Nat) : List Char → Nat → Option Nat
  | _, 0 => some b
  | [], _ + 1 => none
  | c :: cs, k + 1 => byteOffsetFrom (b + c.utf8Size) cs k

/-- The byte offset at which the character with number `k` begins, or at which the last one ends. -/
def byteOffset? (s : String) (k : Nat) : Option Nat :=
  byteOffsetFrom 0 s.toList k

/-- The part of a string between two byte offsets, if both are character boundaries in order. -/
def sliceBytes? (s : String) (b e : Nat) : Option String :=
  if h : String.Pos.Raw.IsValid s ⟨b⟩ ∧ String.Pos.Raw.IsValid s ⟨e⟩ ∧ b ≤ e then
    some (s.extract (s.pos ⟨b⟩ h.1) (s.pos ⟨e⟩ h.2.1))
  else none

/-! ### Boundaries as sums of widths -/

/-- The number of bytes that characters take. -/
def byteWidth : List Char → Nat
  | [] => 0
  | c :: cs => c.utf8Size + byteWidth cs

@[simp] theorem byteWidth_nil : byteWidth [] = 0 := rfl

@[simp] theorem byteWidth_cons (c : Char) (cs : List Char) :
    byteWidth (c :: cs) = c.utf8Size + byteWidth cs := rfl

@[simp] theorem byteWidth_append (cs ds : List Char) :
    byteWidth (cs ++ ds) = byteWidth cs + byteWidth ds := by
  induction cs with
  | nil => simp
  | cons c cs ih => simp [ih, Nat.add_assoc]

theorem byteOffsetFrom_eq (b k : Nat) (cs : List Char) :
    byteOffsetFrom b cs k = if k ≤ cs.length then some (b + byteWidth (cs.take k)) else none := by
  induction cs generalizing b k with
  | nil => cases k <;> simp [byteOffsetFrom]
  | cons c cs ih =>
    cases k with
    | zero => simp [byteOffsetFrom]
    | succ k => simp [byteOffsetFrom, ih, Nat.add_assoc]

theorem byteOffset?_eq (s : String) (k : Nat) :
    byteOffset? s k =
      if k ≤ s.toList.length then some (byteWidth (s.toList.take k)) else none := by
  simp [byteOffset?, byteOffsetFrom_eq]

theorem byteOffset?_eq_some_iff {s : String} {k b : Nat} :
    byteOffset? s k = some b ↔ k ≤ s.toList.length ∧ b = byteWidth (s.toList.take k) := by
  rw [byteOffset?_eq]
  split
  · rename_i h
    exact ⟨fun e => ⟨h, (Option.some.inj e).symm⟩, fun e => congrArg some e.2.symm⟩
  · rename_i h
    exact ⟨fun e => absurd e (by simp), fun e => absurd e.1 h⟩

/-! ### Cuts at boundaries -/

theorem utf8ByteSize_ofList (cs : List Char) : (String.ofList cs).utf8ByteSize = byteWidth cs := by
  induction cs with
  | nil => rfl
  | cons c cs ih =>
    rw [byteWidth_cons, ← ih, String.ofList_cons, String.utf8ByteSize_append]
    simp

theorem isValid_byteWidth (pre suf : List Char) :
    String.Pos.Raw.IsValid (String.ofList (pre ++ suf)) ⟨byteWidth pre⟩ := by
  rw [String.Pos.Raw.isValid_iff_exists_append]
  refine ⟨_, _, String.ofList_append, ?_⟩
  rw [← utf8ByteSize_ofList]
  rfl

theorem sliceBytes?_byteWidth (pre mid suf : List Char) :
    sliceBytes? (String.ofList (pre ++ mid ++ suf)) (byteWidth pre) (byteWidth (pre ++ mid)) =
      some (String.ofList mid) := by
  have h₁ : String.Pos.Raw.IsValid (String.ofList (pre ++ mid ++ suf)) ⟨byteWidth pre⟩ := by
    rw [List.append_assoc]
    exact isValid_byteWidth _ _
  have h₂ := isValid_byteWidth (pre ++ mid) suf
  have hle : byteWidth pre ≤ byteWidth (pre ++ mid) := by simp
  rw [sliceBytes?, dif_pos ⟨h₁, h₂, hle⟩]
  congr 1
  -- From here on the cut is one of bytes: those of `pre` are skipped and those of `mid` kept.
  rw [← String.toByteArray_inj, String.toByteArray_extract]
  simp only [String.offset_pos, String.ofList_append, String.toByteArray_append, byteWidth_append]
  have hpre : byteWidth pre = (String.ofList pre).toByteArray.size :=
    (utf8ByteSize_ofList pre).symm
  have hmid : byteWidth mid = (String.ofList mid).toByteArray.size :=
    (utf8ByteSize_ofList mid).symm
  have key := ByteArray.extract_append_size_add' (i := 0) (j := byteWidth mid)
    (b := (String.ofList mid).toByteArray ++ (String.ofList suf).toByteArray) hpre
  rw [ByteArray.append_assoc, ← Nat.add_zero (byteWidth pre), Nat.add_assoc, Nat.zero_add, key,
    ByteArray.extract_append_eq_left hmid]

end DirtyRegion.Text
