import DirtyRegion.Proofs.Algebra

/-!
# Binding — the ways to put a change between two texts

A change is put between two texts as it is by `Change.attach`, and through a blank one that gathers it
by `Change.between`. A blank change takes over what it gathers, versions and all, unless that is empty:
then it stays blank. So the two ways part where an empty change has a place or a version to lose.

Main statements: `blank_combine_eq_self_iff` (what a blank extent takes over as it is),
`between_beq_attach_iff`, and `bindings_agree`, which has the changes of edits as well.
-/

namespace DirtyRegion

namespace Extent

variable {e : Extent} {start old new : Offset}

/-! ### What a blank extent gathers -/

theorem blank_combine_of_full (h : e.isEmpty = false) : blank.combine e = e := by
  rw [combine_of_adopted h isEmpty_blank]
  refine Extent.ext ?_ rfl rfl
  rw [Offset.max_comm]
  exact Offset.max_eq_left_iff.mpr UInt64.zero_le

theorem blank_combine_eq_self_iff : blank.combine e = e ↔ e.isEmpty = false ∨ e = blank := by
  cases h : e.isEmpty with
  | true => rw [combine_of_ignored _ h, eq_comm]; simp
  | false => simp [blank_combine_of_full h]

/-- Gathering by one more blank extent makes no difference. -/
theorem blank_combine_idem (e : Extent) : blank.combine (blank.combine e) = blank.combine e := by
  cases h : e.isEmpty with
  | true => rw [combine_of_ignored _ h, combine_of_ignored _ isEmpty_blank]
  | false => rw [blank_combine_of_full h, blank_combine_of_full h]

theorem eq_blank_iff : e = blank ↔ e.before = .empty ∧ e.after = .empty ∧ e.version = 0 := by
  constructor
  · rintro rfl
    exact ⟨rfl, rfl, rfl⟩
  · rintro ⟨hbefore, hafter, hversion⟩
    exact Extent.ext hversion hbefore hafter

/-! ### Extents of edits -/

/-- An edit that takes nothing away and puts nothing in is the only one that is empty. -/
theorem isEmpty_of_ofEdit (h : ofEdit start old new = .ok e) :
    e.isEmpty = true ↔ old = 0 ∧ new = 0 := by
  obtain ⟨-, hbefore, hafter⟩ := ofEdit_eq_ok_iff.mp h
  rw [isEmpty, Bool.and_eq_true, Span.isEmpty, Span.isEmpty, beq_iff_eq, beq_iff_eq,
    Span.length_of_ofLength hbefore, Span.length_of_ofLength hafter]

/-- Of the empty edits, the one at the start of the text is blank. -/
theorem eq_blank_of_ofEdit (h : ofEdit start old new = .ok e) (he : e.isEmpty = true) :
    e = blank ↔ start = 0 := by
  obtain ⟨hversion, hbefore, hafter⟩ := ofEdit_eq_ok_iff.mp h
  obtain ⟨hb, -⟩ := Span.ofLength_eq_ok_iff.mp hbefore
  obtain ⟨ha, -⟩ := Span.ofLength_eq_ok_iff.mp hafter
  obtain ⟨hbe, hae⟩ := isEmpty_iff.mp he
  constructor
  · rintro rfl
    exact hb.symm
  · rintro rfl
    refine Extent.ext hversion (Span.ext hb ?_) (Span.ext ha ?_)
    · rw [← hbe, hb]; rfl
    · rw [← hae, ha]; rfl

end Extent

namespace Change

variable {c : Change} {start old new : Offset}

/-- The two ways come to the same where a blank extent takes the extent over as it is. -/
theorem between_beq_attach_iff (c : Change) (s t : Snapshot) :
    (c.between s t == c.attach s t) = true ↔ c.isEmpty = false ∨ c.toExtent = .blank := by
  rw [← Extent.blank_combine_eq_self_iff, beq_iff]
  simp [between, attach, blank]

theorem between_between (c : Change) (s t s' t' : Snapshot) :
    (c.between s t).between s' t' = c.between s' t' := by
  show Change.mk (Extent.blank.combine (Extent.blank.combine c.toExtent)) _ _ = _
  rw [Extent.blank_combine_idem]
  rfl

/-- The change of an edit comes to the same either way, unless the edit is empty and not at the start
of the text. -/
theorem between_beq_attach_of_ofEdit (h : ofEdit start old new = .ok c) (s t : Snapshot) :
    (c.between s t == c.attach s t) = true ↔ ¬(old = 0 ∧ new = 0 ∧ 0 < start) := by
  obtain ⟨e, he, rfl⟩ := ofEdit_eq_ok_iff.mp h
  have hempty := Extent.isEmpty_of_ofEdit he
  rw [between_beq_attach_iff, UInt64.pos_iff_ne_zero, toExtent_ofExtent]
  by_cases hidle : e.isEmpty = true
  · obtain ⟨hold, hnew⟩ := hempty.mp hidle
    rw [Extent.eq_blank_of_ofEdit he hidle]
    simp [hidle, hold, hnew]
  · have hfull : e.isEmpty = false := by simpa using hidle
    have hbusy : ¬(old = 0 ∧ new = 0) := fun h => hidle (hempty.mpr h)
    simp only [hfull, true_or, true_iff]
    rintro ⟨hold, hnew, -⟩
    exact hbusy ⟨hold, hnew⟩

/-- **The ways to bind a change.** Gathered into a blank change or not, a change comes to the same
between two texts exactly if it is not empty, or blank but for its texts; else the way through the
blank change leaves nothing of it. The change of an edit that is given its texts at once is the one
that is given them later, and is the one that goes through a blank change unless the edit is empty and
not at the start of the text. Of several bindings by way of a blank change, the last one counts. -/
theorem bindings_agree :
    (∀ (c : Change) (s t : Snapshot),
      ((c.between s t == c.attach s t) = true ↔
        c.isEmpty = false ∨ c.before = .empty ∧ c.after = .empty ∧ c.version = 0) ∧
      ((c.between s t == c.attach s t) = false →
        (c.between s t).before = .empty ∧ (c.between s t).after = .empty ∧
          (c.between s t).version = 0)) ∧
    (∀ (start old new : Offset) (c : Change), ofEdit start old new = .ok c → ∀ s t : Snapshot,
      ∃ d, ofEditBetween start old new s t = .ok d ∧ (d == c.attach s t) = true ∧
        ((c.between s t == d) = true ↔ ¬(old = 0 ∧ new = 0 ∧ 0 < start)) ∧
        ((c.between s t == c.attach s t) = true ↔ ¬(old = 0 ∧ new = 0 ∧ 0 < start))) ∧
    ∀ (c : Change) (s t s' t' : Snapshot),
      ((c.between s t).between s' t' == c.between s' t') = true := by
  refine ⟨?_, ?_, ?_⟩
  · intro c s t
    have hiff := between_beq_attach_iff c s t
    rw [← Extent.eq_blank_iff, ← Extent.eq_blank_iff]
    refine ⟨hiff, fun h => ?_⟩
    have hempty : c.isEmpty = true := by
      rw [← Bool.not_eq_false]
      intro hfull
      rw [hiff.mpr (.inl hfull)] at h
      cases h
    exact Extent.combine_of_ignored _ hempty
  · intro start old new c h s t
    have hiff := between_beq_attach_of_ofEdit h s t
    have hbetween : ofEditBetween start old new s t = .ok (c.attach s t) := by
      rw [ofEditBetween, h]
      rfl
    exact ⟨c.attach s t, hbetween, beq_iff.mpr (by simp), hiff, hiff⟩
  · intro c s t s' t'
    rw [between_between]
    exact beq_iff.mpr (by simp)

/-- Two words, the second with the last letter of the first deleted. -/
def longWord : Snapshot := ⟨0, .plain "abcd"⟩

def shortWord : Snapshot := ⟨1, .plain "abc"⟩

/-- Between two words an empty edit loses its place on the way through a blank change, the deletion at
the same place does not. -/
theorem empty_edit_loses_its_place :
    (∃ c d, ofEdit 3 0 0 = .ok c ∧ ofEditBetween 3 0 0 longWord shortWord = .ok d ∧
      (d == c.attach longWord shortWord) = true ∧ (c.between longWord shortWord == d) = false ∧
      (c.between longWord shortWord).before = .empty) ∧
    ∃ c d, ofEdit 3 1 0 = .ok c ∧ ofEditBetween 3 1 0 longWord shortWord = .ok d ∧
      (c.between longWord shortWord == d) = true := by
  obtain ⟨hways, hedits, -⟩ := bindings_agree
  obtain ⟨c, hc⟩ : ∃ c, ofEdit 3 0 0 = .ok c := ⟨_, rfl⟩
  obtain ⟨e, he⟩ : ∃ e, ofEdit 3 1 0 = .ok e := ⟨_, rfl⟩
  obtain ⟨d, hd, hattach, hempty, hparts⟩ := hedits 3 0 0 c hc longWord shortWord
  obtain ⟨f, hf, -, hfull, -⟩ := hedits 3 1 0 e he longWord shortWord
  have hlost : (c.between longWord shortWord == c.attach longWord shortWord) = false :=
    Bool.eq_false_iff.mpr fun h => hparts.mp h (by decide)
  refine ⟨⟨c, d, hc, hd, hattach, ?_, ((hways c longWord shortWord).2 hlost).1⟩, e, f, he, hf, ?_⟩
  · exact Bool.eq_false_iff.mpr fun h => hempty.mp h (by decide)
  · exact hfull.mpr (by decide)

end Change

end DirtyRegion
