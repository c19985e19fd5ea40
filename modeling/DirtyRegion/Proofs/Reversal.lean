import DirtyRegion.Proofs.Agreement
import DirtyRegion.Proofs.Atomicity
import DirtyRegion.Proofs.Report
import DirtyRegion.Proofs.Slice

/-!
# Reversal — what the change of one edit tells, and the edit back

The change of one edit lies between the text that the edit meets and the text that it makes. Read
against the two, it tells all there is to tell about the edit. The same change with its two sides
swapped is the change of the edit that takes the first one back, and tells as much about that.

- `Edit.removed e cs` are the characters that go, and `Edit.undo e cs` is the edit back.
- `Change.Tells c e s t` says that `c` tells the whole edit `e` between `s` and `t`.
- `Change.reverse` swaps the two sides of a change.

Main statements: `Edit.sameRest_splice` and `Edit.splice_undo` on texts, `Edit.Names.tells` (a change
with the spans of an edit tells that edit) and `ofEditBetween_tells_both_ways`.
-/

namespace DirtyRegion

section Defs

namespace Edit

variable {α : Type}

/-- The characters that go. -/
def removed (e : Edit α) (cs : List α) : List α :=
  (cs.drop e.start.toNat).take e.old.toNat

theorem length_removed_lt (e : Edit α) (cs : List α) : (e.removed cs).length < offsetCount :=
  Nat.lt_of_le_of_lt (List.length_take_le _ _) (Offset.toNat_lt_count _)

/-- The edit back: what came goes, and what went comes. -/
def undo (e : Edit α) (cs : List α) : Edit α :=
  ⟨e.start, e.inserted, e.removed cs, e.version, length_removed_lt e cs⟩

end Edit

namespace Change

/-- The change the other way round. -/
def reverse (c : Change) : Change :=
  ⟨⟨c.version, c.after, c.before⟩, c.afterText, c.beforeText⟩

/-- The change lies between two texts, and can be read as the edit that leads from one to the other. -/
structure Tells (c : Change) (e : Edit Char) (s t : Snapshot) : Prop where
  beforeText : c.beforeText = some s
  afterText : c.afterText = some t
  before_slice : c.beforeSlice? = some (String.ofList (e.removed s.toList))
  after_slice : c.afterSlice? = some (String.ofList e.text)
  same_start : ∀ i : Offset, i < e.start →
    ∃ a, TextSource.charAt? s i = some a ∧ TextSource.charAt? t i = some a
  shift : c.shift? = some ((e.text.length : ℤ) - e.old.toNat)
  /-- The distance leads from any place behind the earlier span to the same character, or from a
  place behind the text to one that is, too. -/
  same_rest : ∀ (d : ℤ) (i j : Offset), c.shift? = some d → c.before.stop ≤ i →
    (j.toNat : ℤ) = i.toNat + d → TextSource.charAt? s i = TextSource.charAt? t j

end Change

end Defs

theorem SameRest.getElem?_eq {α : Type} {i j : ℕ} {cs ds : List α} (h : SameRest i j cs ds) (k : ℕ) :
    cs[i + k]? = ds[j + k]? := by
  rw [← List.getElem?_drop, ← List.getElem?_drop, h.2.2]

/-! ### The edit back, on texts -/

namespace Edit

variable {α : Type} {e : Edit α} {cs : List α}

theorem length_removed (h : e.Fits cs) : (e.removed cs).length = e.old.toNat := by
  unfold Fits at h
  rw [removed, List.length_take, List.length_drop]
  omega

theorem inserted_undo (h : e.Fits cs) : (e.undo cs).inserted = e.old := by
  rw [← UInt64.toNat_inj, toNat_inserted]
  exact length_removed h

theorem getElem?_splice_of_lt (h : e.Fits cs) {i : ℕ} (hi : i < e.start.toNat) :
    (e.splice cs)[i]? = cs[i]? := by
  rw [← List.getElem?_take_of_lt hi, take_splice h (Nat.le_refl _), List.getElem?_take_of_lt hi]

/-- What the edit leaves alone behind it goes on as before. -/
theorem sameRest_splice (h : e.Fits cs) :
    SameRest (e.start.toNat + e.old.toNat) (e.start.toNat + e.text.length) cs (e.splice cs) := by
  have hlen := length_splice h
  unfold Fits at h
  refine ⟨h, by omega, ?_⟩
  have hfront : (cs.take e.start.toNat ++ e.text).length = e.start.toNat + e.text.length := by
    rw [List.length_append, List.length_take]
    omega
  rw [splice, ← hfront, List.drop_left]

/-- What came stands where the edit begins. -/
theorem take_drop_splice (h : e.Fits cs) :
    ((e.splice cs).drop e.start.toNat).take e.text.length = e.text := by
  unfold Fits at h
  have hfront : (cs.take e.start.toNat).length = e.start.toNat := by
    rw [List.length_take]
    omega
  rw [splice, List.append_assoc, List.drop_left' hfront, List.take_left]

theorem removed_undo (h : e.Fits cs) : (e.undo cs).removed (e.splice cs) = e.text := by
  show ((e.splice cs).drop e.start.toNat).take e.inserted.toNat = e.text
  rw [toNat_inserted, take_drop_splice h]

theorem fits_undo (h : e.Fits cs) : (e.undo cs).Fits (e.splice cs) := by
  show e.start.toNat + e.inserted.toNat ≤ (e.splice cs).length
  rw [toNat_inserted]
  exact (sameRest_splice h).2.1

/-- **There and back.** -/
theorem splice_undo (h : e.Fits cs) : (e.undo cs).splice (e.splice cs) = cs := by
  show (e.splice cs).take e.start.toNat ++ e.removed cs ++
    (e.splice cs).drop (e.start.toNat + e.inserted.toNat) = cs
  rw [take_splice h (Nat.le_refl _), toNat_inserted, ← (sameRest_splice h).2.2, removed,
    List.append_assoc, ← List.drop_drop, List.take_append_drop, List.take_append_drop]

end Edit

/-! ### What a change tells -/

namespace Edit.Names

variable {e : Edit Char} {c : Change} {s t : Snapshot}

/-- The slices are what went and what came. -/
theorem slices (h : e.Names c.toExtent) (hs : c.beforeText = some s) (ht : c.afterText = some t)
    (hfit : e.Fits s.toList) (hsplice : t.toList = e.splice s.toList) :
    c.beforeSlice? = some (String.ofList (e.removed s.toList)) ∧
      c.afterSlice? = some (String.ofList e.text) := by
  rw [Change.beforeSlice?_eq hs, Change.afterSlice?_eq ht, Snapshot.text?_eq_some_iff,
    Snapshot.text?_eq_some_iff, String.toList_ofList, String.toList_ofList, h.before_stop,
    h.before_start, h.after_stop, h.after_start, hsplice]
  refine ⟨⟨hfit, ?_⟩, ⟨(sameRest_splice hfit).2.1, ?_⟩⟩
  · rw [removed, List.drop_take, Nat.add_sub_cancel_left]
  · rw [List.drop_take, Nat.add_sub_cancel_left, take_drop_splice hfit]

/-- A change with the spans of an edit tells that edit, as long as its lengths have a distance. -/
theorem tells (h : e.Names c.toExtent) (hs : c.beforeText = some s) (ht : c.afterText = some t)
    (hfit : e.Fits s.toList) (hsplice : t.toList = e.splice s.toList)
    (hold : e.old.toNat < distanceCount) (hnew : e.text.length < distanceCount) :
    c.Tells e s t := by
  have hbefore : c.before.length.toNat = e.old.toNat := by
    rw [Span.toNat_length, h.before_stop, h.before_start, Nat.add_sub_cancel_left]
  have hafter : c.after.length.toNat = e.text.length := by
    rw [Span.toNat_length, h.after_stop, h.after_start, Nat.add_sub_cancel_left]
  have hshift : c.shift? = some ((e.text.length : ℤ) - e.old.toNat) := by
    rw [Extent.shift?_of_lt (hbefore ▸ hold) (hafter ▸ hnew), hbefore, hafter]
  obtain ⟨hremoved, hinserted⟩ := h.slices hs ht hfit hsplice
  refine ⟨hs, ht, hremoved, hinserted, ?_, hshift, ?_⟩
  · intro i hi
    rw [UInt64.lt_iff_toNat_lt] at hi
    unfold Fits at hfit
    have hin : i.toNat < s.toList.length := by omega
    have hat : s.toList[i.toNat]? = some s.toList[i.toNat] := List.getElem?_eq_getElem hin
    refine ⟨_, (LawfulTextSource.charAt?_eq s i).trans hat, ?_⟩
    rw [LawfulTextSource.charAt?_eq, ← Snapshot.toList, hsplice, getElem?_splice_of_lt hfit hi, hat]
  · intro d i j hd hi hj
    obtain rfl := Option.some.inj (hshift.symm.trans hd)
    rw [UInt64.le_iff_toNat_le, h.before_stop] at hi
    -- The place stands `k` characters behind the earlier span, and the distance leads as far behind
    -- the later one.
    obtain ⟨k, hk⟩ := Nat.exists_eq_add_of_le hi
    have hjk : j.toNat = e.start.toNat + e.text.length + k := by omega
    rw [LawfulTextSource.charAt?_eq, LawfulTextSource.charAt?_eq, ← Snapshot.toList,
      ← Snapshot.toList, hsplice, hk, hjk]
    exact (sameRest_splice hfit).getElem?_eq k

end Edit.Names

/-! ### The change of an edit, forth and back -/

namespace Change

variable {start old new : Offset} {e : Edit Char} {c : Change} {s t : Snapshot}

/-- The change of an edit is turned round by asking for the edit back. -/
theorem ofEditBetween_reverse (h : ofEditBetween start old new s t = .ok c) :
    ofEditBetween start new old t s = .ok c.reverse := by
  obtain ⟨d, hd, rfl⟩ := map_eq_ok_iff.mp h
  obtain ⟨x, hx, rfl⟩ := ofEdit_eq_ok_iff.mp hd
  obtain ⟨hversion, hbefore, hafter⟩ := Extent.ofEdit_eq_ok_iff.mp hx
  have hback : Extent.ofEdit start new old = .ok ⟨x.version, x.after, x.before⟩ :=
    Extent.ofEdit_eq_ok_iff.mpr ⟨hversion, hafter, hbefore⟩
  rw [ofEditBetween, ofEdit, hback]
  rfl

theorem tells_of_ofEditBetween (h : ofEditBetween e.start e.old e.inserted s t = .ok c)
    (hfit : e.Fits s.toList) (hsplice : t.toList = e.splice s.toList)
    (hold : e.old.toNat < distanceCount) (hnew : e.text.length < distanceCount) :
    c.Tells e s t := by
  obtain ⟨d, hd, rfl⟩ := map_eq_ok_iff.mp h
  have hedit := isEdit_of_ofEdit hd
  have hnames : e.Names d.toExtent := ⟨hedit.before_start, hedit.before_stop, hedit.after_start,
    e.toNat_inserted ▸ hedit.after_stop⟩
  exact Edit.Names.tells hnames rfl rfl hfit hsplice hold hnew

/-- The change of the edit back tells as much about it. -/
theorem tells_reverse (h : ofEditBetween e.start e.old e.inserted s t = .ok c)
    (hfit : e.Fits s.toList) (hsplice : t.toList = e.splice s.toList)
    (hold : e.old.toNat < distanceCount) (hnew : e.text.length < distanceCount) :
    c.reverse.Tells (e.undo s.toList) t s ∧
      c.reverse.shift? = some (-((e.text.length : ℤ) - e.old.toNat)) := by
  have hcome : (e.undo s.toList).text.length = e.old.toNat := Edit.length_removed hfit
  have hgo : (e.undo s.toList).old.toNat = e.text.length := e.toNat_inserted
  have htells : c.reverse.Tells (e.undo s.toList) t s := by
    refine tells_of_ofEditBetween ?_ ?_ ?_ (by omega) (by omega)
    · rw [Edit.inserted_undo hfit]
      exact ofEditBetween_reverse h
    · rw [hsplice]
      exact Edit.fits_undo hfit
    · rw [hsplice, Edit.splice_undo hfit]
  refine ⟨htells, htells.shift.trans ?_⟩
  rw [hcome, hgo, Int.neg_sub]

end Change

/-- **One edit is told exactly.** The edit lies in the text of a snapshot, that text and what comes are
shorter than `2 ^ 63`, and another snapshot of any kind holds the text after the edit. Then the change
of the edit between the two is there and tells what went, what came, what is the same in front and
behind, and by how far the rest has moved. With its sides swapped it is the change of the edit back,
which restores the first text, and tells just as much about that; its distance is the opposite. -/
theorem ofEditBetween_tells_both_ways {e : Edit Char} {s t : Snapshot} (hfit : e.Fits s.toList)
    (hs : s.toList.length < distanceCount) (he : e.text.length < distanceCount)
    (ht : t.toList = e.splice s.toList) :
    ∃ c, Change.ofEditBetween e.start e.old e.inserted s t = .ok c ∧ c.Tells e s t ∧
      ((e.undo s.toList).splice t.toList = s.toList ∧
        (e.undo s.toList).removed t.toList = e.text) ∧
      Change.ofEditBetween e.start e.inserted e.old t s = .ok c.reverse ∧
      c.reverse.Tells (e.undo s.toList) t s ∧
      ∃ d, c.shift? = some d ∧ c.reverse.shift? = some (-d) := by
  have hstop : e.start.toNat + e.old.toNat ≤ s.toList.length := hfit
  have hinserted := e.toNat_inserted
  -- Both texts are shorter than `2 ^ 63`, so neither end of the edit goes past the last offset.
  have hends : e.start.toNat + max e.old.toNat e.inserted.toNat < offsetCount := by
    have hcount : offsetCount = 2 * distanceCount := rfl
    omega
  obtain ⟨d, hd⟩ := Change.exists_ofEdit_iff.mpr hends
  have hforth : Change.ofEditBetween e.start e.old e.inserted s t = .ok (d.attach s t) :=
    map_eq_ok_iff.mpr ⟨d, hd, rfl⟩
  have htells := Change.tells_of_ofEditBetween hforth hfit ht (by omega) he
  have hback := Change.ofEditBetween_reverse hforth
  obtain ⟨hreverse, hopposite⟩ := Change.tells_reverse hforth hfit ht (by omega) he
  rw [ht]
  exact ⟨_, hforth, htells, ⟨Edit.splice_undo hfit, Edit.removed_undo hfit⟩, hback, hreverse, _,
    htells.shift, hopposite⟩

/-- In a rope, a character of four bytes takes the place of one of two bytes and a line break. -/
def mixedWidthsEdit : Edit Char := .put 1 3 '🚀' 1

/-- The text before `mixedWidthsEdit` is held in chunks, and the text after it in one piece. -/
theorem mixedWidthsEdit_tells_both_ways :
    mixedWidthsEdit.splice mixedWidths.toList = "a🚀€🚀b".toList ∧
    ∃ c, Change.ofEditBetween 1 3 1 ⟨0, .rope mixedWidthsRope⟩ ⟨1, .plain "a🚀€🚀b"⟩ = .ok c ∧
      c.beforeSlice? = some "é\r\n" ∧ c.afterSlice? = some "🚀" ∧
      c.shift? = some (-2) ∧ c.reverse.shift? = some 2 := by
  have hfit : mixedWidthsEdit.Fits (Snapshot.mk 0 (.rope mixedWidthsRope)).toList :=
    show 1 + 3 ≤ 7 by decide
  have hsplice : (Snapshot.mk 1 (.plain "a🚀€🚀b")).toList =
      mixedWidthsEdit.splice (Snapshot.mk 0 (.rope mixedWidthsRope)).toList := by decide
  obtain ⟨c, hc, htells, -, -, -, d, hd, hopposite⟩ :=
    ofEditBetween_tells_both_ways hfit (by decide) (by decide) hsplice
  have hshift : c.shift? = some (-2) := htells.shift
  obtain rfl : -2 = d := Option.some.inj (hshift.symm.trans hd)
  exact ⟨by decide, c, hc, htells.before_slice, htells.after_slice, hshift, hopposite⟩

end DirtyRegion
