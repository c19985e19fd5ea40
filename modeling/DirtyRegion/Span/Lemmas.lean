import DirtyRegion.Span.Basic

/-!
# Lemmas on spans — each operation through natural numbers

One lemma per operation of `DirtyRegion.Span.Basic` on a single span, each saying what the operation
does in terms of the two bounds as natural numbers. After these no proof opens an operation again.
`DirtyRegion.Span.Cover` has the operations on two spans.

Main statements: `ofBounds_eq_ok_iff` and `ofLength_eq_ok_iff` (when a span is built, and which),
`toNat_length`, `isEmpty_iff`, `contains_iff`.
-/

namespace DirtyRegion

/-- What is done in two parts succeeds when both parts do. -/
theorem bind_eq_ok_iff {ε α β : Type} {x : Except ε α} {f : α → Except ε β} {b : β} :
    (x >>= f) = .ok b ↔ ∃ a, x = .ok a ∧ f a = .ok b := by
  cases x with
  | error e => exact ⟨nofun, nofun⟩
  | ok a => exact ⟨fun h => ⟨a, rfl, h⟩, fun ⟨_, ha, h⟩ => Except.ok.inj ha ▸ h⟩

theorem map_eq_ok_iff {ε α β : Type} {x : Except ε α} {f : α → β} {b : β} :
    x.map f = .ok b ↔ ∃ a, x = .ok a ∧ f a = b := by
  cases x with
  | error e => exact ⟨nofun, nofun⟩
  | ok a => exact ⟨fun h => ⟨a, rfl, Except.ok.inj h⟩, fun ⟨_, ha, h⟩ => Except.ok.inj ha ▸ h ▸ rfl⟩

theorem mapError_eq_ok_iff {ε ε' α : Type} {f : ε → ε'} {x : Except ε α} {a : α} :
    x.mapError f = .ok a ↔ x = .ok a := by
  cases x with
  | error e => exact ⟨nofun, nofun⟩
  | ok b => exact ⟨fun h => congrArg _ (Except.ok.inj h), fun h => congrArg _ (Except.ok.inj h)⟩

theorem mem_of_lookup {α β : Type} [BEq α] [LawfulBEq α] {l : List (α × β)} {a : α} {b : β}
    (h : l.lookup a = some b) : (a, b) ∈ l := by
  obtain ⟨l₁, l₂, rfl, -⟩ := List.lookup_eq_some_iff.mp h
  exact List.mem_append_right _ (List.mem_cons_self ..)

namespace Span

/-! ### Bounds -/

theorem toNat_start_le_stop (s : Span) : s.start.toNat ≤ s.stop.toNat :=
  UInt64.le_iff_toNat_le.mp s.start_le_stop

theorem toNat_stop_lt (s : Span) : s.stop.toNat < offsetCount :=
  s.stop.toNat_lt_count

@[ext] theorem ext {s t : Span} (h₁ : s.start = t.start) (h₂ : s.stop = t.stop) : s = t := by
  cases s
  cases t
  simp_all

theorem ext_toNat {s t : Span} (h₁ : s.start.toNat = t.start.toNat)
    (h₂ : s.stop.toNat = t.stop.toNat) : s = t :=
  ext (UInt64.toNat.inj h₁) (UInt64.toNat.inj h₂)

/-! ### Building spans -/

theorem ofBounds_eq_ok_iff {a b : Offset} {s : Span} :
    ofBounds a b = .ok s ↔ s.start = a ∧ s.stop = b := by
  unfold ofBounds
  split
  · rename_i h
    constructor
    · intro e
      cases e
      exact ⟨rfl, rfl⟩
    · rintro ⟨rfl, rfl⟩
      rfl
  · rename_i h
    constructor
    · intro e
      cases e
    · rintro ⟨rfl, rfl⟩
      exact absurd s.start_le_stop h

theorem ofBounds_of_le {a b : Offset} (h : a ≤ b) : ofBounds a b = .ok ⟨a, b, h⟩ :=
  dif_pos h

theorem ofBounds_of_lt {a b : Offset} (h : b < a) : ofBounds a b = .error (.endBeforeStart a b) :=
  dif_neg (UInt64.not_le.mpr h)

theorem ofBounds_start_stop (s : Span) : ofBounds s.start s.stop = .ok s :=
  ofBounds_eq_ok_iff.mpr ⟨rfl, rfl⟩

theorem ofLength_of_lt {a n : Offset} (h : a.toNat + n.toNat < offsetCount) :
    ofLength a n = .ok ⟨a, a + n, Offset.le_add_of_lt h⟩ :=
  dif_pos h

theorem ofLength_of_le {a n : Offset} (h : offsetCount ≤ a.toNat + n.toNat) :
    ofLength a n = .error (.lengthOverflow a n) :=
  dif_neg (Nat.not_lt.mpr h)

theorem ofLength_eq_ok_iff {a n : Offset} {s : Span} :
    ofLength a n = .ok s ↔ s.start = a ∧ s.stop.toNat = a.toNat + n.toNat := by
  unfold ofLength
  split
  · rename_i h
    have hsum := Offset.toNat_add_of_lt h
    constructor
    · intro e
      cases e
      exact ⟨rfl, hsum⟩
    · rintro ⟨rfl, hs⟩
      exact congrArg Except.ok (ext_toNat rfl (hsum.trans hs.symm))
  · rename_i h
    constructor
    · intro e
      cases e
    · rintro ⟨rfl, hs⟩
      have := s.toNat_stop_lt
      omega

/-! ### Spans as sets of offsets -/

theorem toNat_length (s : Span) : s.length.toNat = s.stop.toNat - s.start.toNat :=
  UInt64.toNat_sub_of_le _ _ s.start_le_stop

theorem length_of_ofLength {a n : Offset} {s : Span} (h : ofLength a n = .ok s) :
    s.length = n := by
  obtain ⟨hstart, hstop⟩ := ofLength_eq_ok_iff.mp h
  rw [← UInt64.toNat_inj, toNat_length, hstop, hstart]
  exact Nat.add_sub_cancel_left ..

theorem ofLength_start_length (s : Span) : ofLength s.start s.length = .ok s := by
  have h := s.toNat_start_le_stop
  rw [ofLength_eq_ok_iff, toNat_length]
  exact ⟨rfl, by omega⟩

theorem isEmpty_iff {s : Span} : s.isEmpty = true ↔ s.start = s.stop := by
  have h := s.toNat_start_le_stop
  rw [isEmpty, beq_iff_eq, ← UInt64.toNat_inj, toNat_length, ← UInt64.toNat_inj]
  simp
  omega

theorem contains_iff {s : Span} {o : Offset} :
    s.contains o = true ↔ s.start.toNat ≤ o.toNat ∧ o.toNat < s.stop.toNat := by
  simp [contains, UInt64.le_iff_toNat_le, UInt64.lt_iff_toNat_lt]

end Span

end DirtyRegion
