import DirtyRegion.Proofs.Origin
import DirtyRegion.Proofs.Report

/-!
# Bursts — what gathering successive edits tells about the first and the last text

Each edit of a burst is described in the text it meets, and the gathered spans are read against the
first text and the last. The left end of what is gathered is right for every burst. The right end is
not: an edit that moves the text behind it makes the ends of later and of earlier edits speak of
other characters, so erasing two characters is enough to go wrong (`erasing_not_explained`).

Main statements: `explainsEvery_iff` and `burst_explained_iff`, which say for which bursts on every
text, and for which texts, the gathered change explains the first and the last text.
-/

namespace DirtyRegion

namespace Edit

variable {α β : Type}

theorem change_map (f : α → β) (e : Edit α) : (e.map f).change = e.change := by
  simp [change, map, inserted]

theorem size_map (f : α → β) (e : Edit α) : (e.map f).size = e.size := by
  simp [size, map]

theorem active_map (f : α → β) (es : List (Edit α)) :
    active (es.map (map f)) = (active es).map (map f) := by
  simp only [active, List.filter_map, Function.comp_def, size_map]

theorem oldEnd_map (f : α → β) (es : List (Edit α)) : oldEnd (es.map (map f)) = oldEnd es := by
  rw [oldEnd, active_map, List.map_map, oldEnd]
  rfl

theorem newEnd_map (f : α → β) (es : List (Edit α)) : newEnd (es.map (map f)) = newEnd es := by
  rw [newEnd, active_map, List.map_map, newEnd]
  simp [Function.comp_def, map]

theorem valid_of_shape {limit : ℕ} {cs cs' : List α} {es es' : List (Edit α)}
    (hlen : cs'.length = cs.length) (hes : es'.map shape = es.map shape)
    (h : Valid limit cs es) : Valid limit cs' es' := by
  have hunit : cs'.map (fun _ => ()) = cs.map fun _ => () := by
    rw [List.map_const', List.map_const', hlen]
  rw [← valid_map fun _ => (), hunit]
  rw [← valid_map fun _ => ()] at h
  exact hes ▸ h

theorem oldEnd_of_shape {es es' : List (Edit α)} (h : es'.map shape = es.map shape) :
    oldEnd es' = oldEnd es := by
  rw [← oldEnd_map (fun _ => ()) es', ← oldEnd_map (fun _ => ()) es]
  exact congrArg oldEnd h

theorem newEnd_of_shape {es es' : List (Edit α)} (h : es'.map shape = es.map shape) :
    newEnd es' = newEnd es := by
  rw [← newEnd_map (fun _ => ()) es', ← newEnd_map (fun _ => ()) es]
  exact congrArg newEnd h

end Edit

namespace Change

open Edit

variable {c : Change} {cs : List Char} {es : List (Edit Char)} {s t : Snapshot}

theorem gatherEdits_of_shape {es es' : List (Edit Char)} (h : es'.map shape = es.map shape)
    (c : Change) : c.gatherEdits es' = c.gatherEdits es := by
  have hfold : ∀ l : List (Edit Char), c.gatherEdits l = c.gatherEdits (l.map shape) := by
    intro l
    rw [gatherEdits, gatherEdits, List.foldlM_map]
    simp only [shape, change_map]
  rw [hfold es', hfold es, h]

/-- What a gathered burst tells about the two texts it lies between: the left end is right, and all
else hangs on the text after the spans. -/
theorem between_burst (h : Valid distanceCount cs es) (hc : blank.gatherEdits es = .ok c)
    (hs : s.toList = cs) (ht : t.toList = edited cs es) :
    Encloses es (c.between s t).toExtent ∧
      ((c.between s t).Explains cs (edited cs es) ↔
        SameRest (oldEnd es) (newEnd es) cs (edited cs es)) := by
  obtain ⟨d, xs, hd, hnames, hfold⟩ := gatherEdits_of_valid (by decide) h blank
  obtain rfl : d = c := Except.ok.inj (hd.symm.trans hc)
  obtain ⟨hbefore, hafter⟩ := spans_between hfold s t
  have hspans : Encloses es (d.between s t).toExtent := by
    have henc : Encloses es d.toExtent := hfold ▸ Extent.encloses_gathered hnames rfl rfl
    exact ⟨hbefore ▸ henc.before_start, hbefore ▸ henc.before_stop, hafter ▸ henc.after_start,
      hafter ▸ henc.after_stop⟩
  refine ⟨hspans, ?_⟩
  rw [← hspans.before_stop, ← hspans.after_stop]
  refine explains_iff rfl rfl hs ht ?_ ?_ h.length_lt h.length_edited_lt
  · exact UInt64.toNat.inj (hspans.before_start.trans hspans.after_start.symm)
  · rw [hspans.before_start, hspans.after_start]
    exact (take_leastStart h).2.symm

/-- Between any text of `n` characters and what edits of the shapes of `es` make of it, `c` is all
that lies between the two. -/
def ExplainsEvery (c : Change) (n : ℕ) (es : List (Edit Char)) : Prop :=
  ∀ (s t : Snapshot) (es' : List (Edit Char)), s.toList.length = n →
    es'.map shape = es.map shape → t.toList = edited s.toList es' →
    (c.between s t).Explains s.toList t.toList

/-- The labels of a burst can be spelled in any way: the burst of the letters has the same shapes. -/
theorem ExplainsEvery.sameRest_spelled (hall : c.ExplainsEvery cs.length es)
    (h : Valid distanceCount cs es) (hc : blank.gatherEdits es = .ok c) (f : Option ℕ → Char) :
    SameRest (oldEnd es) (newEnd es) ((origins cs.length ([] : List (Edit Char))).map f)
      ((origins cs.length es).map f) := by
  -- Every text counts, so a text whose characters spell the labels does, and the edits that put in
  -- the spelling of no label.
  set es' : List (Edit Char) := (es.map (map fun _ => (none : Option ℕ))).map (map f) with hes'
  set cs' : List Char := ((List.range cs.length).map some).map f with hcs'
  have hlen : cs'.length = cs.length := by simp [hcs']
  have hshape : es'.map shape = es.map shape := by
    rw [hes', List.map_map, shape_comp_map, List.map_map, shape_comp_map]
  have hvalid : Valid distanceCount cs' es' := valid_of_shape hlen hshape h
  have hc' : blank.gatherEdits es' = .ok c := (gatherEdits_of_shape hshape blank).trans hc
  have hs := Snapshot.toList_plain 0 cs'
  have ht := Snapshot.toList_plain 1 (edited cs' es')
  have hx := hall ⟨0, .plain (String.ofList cs')⟩ ⟨1, .plain (String.ofList (edited cs' es'))⟩ es'
    (by rw [hs, hlen]) hshape (by rw [hs, ht])
  rw [hs, ht] at hx
  have hrest := (between_burst hvalid hc' hs ht).2.mp hx
  rw [oldEnd_of_shape hshape, newEnd_of_shape hshape] at hrest
  rwa [hes', hcs', edited_map] at hrest

theorem explainsEvery_iff (h : Valid distanceCount cs es) (hc : blank.gatherEdits es = .ok c) :
    c.ExplainsEvery cs.length es ↔
      SameRest (oldEnd es) (newEnd es) (origins cs.length ([] : List (Edit Char)))
        (origins cs.length es) := by
  constructor
  · intro hall
    exact sameRest_of_map (a := 'a') (b := 'b') (by decide) (hall.sameRest_spelled h hc)
  · intro horigin s t es' hlen hshape ht
    have hvalid : Valid distanceCount s.toList es' := valid_of_shape hlen hshape h
    have hc' : blank.gatherEdits es' = .ok c := (gatherEdits_of_shape hshape blank).trans hc
    rw [← hlen, origins_of_shape hshape.symm] at horigin
    have hrest : SameRest (oldEnd es) (newEnd es) s.toList (edited s.toList es') :=
      sameRest_edited horigin
    rw [← oldEnd_of_shape hshape, ← newEnd_of_shape hshape] at hrest
    rw [ht]
    exact (between_burst hvalid hc' rfl ht).2.mpr hrest

/-- **Exactly when a burst is explained.** The edits of a valid burst are all reported and gathered.
Between the first text and the last, what is gathered runs from the least start to the greatest ends
of the edits, and the text before it is the same in both. It explains the two texts exactly if these
go on alike after the greatest ends; and it explains them whatever their characters are exactly if
the origins of the characters go on alike there. -/
theorem burst_explained_iff (h : Valid distanceCount cs es) :
    ∃ c, blank.gatherEdits es = .ok c ∧
      (∀ s t : Snapshot, s.toList = cs → t.toList = edited cs es →
        Encloses es (c.between s t).toExtent ∧
        cs.take (leastStart es) = (edited cs es).take (leastStart es) ∧
        ((c.between s t).Explains cs (edited cs es) ↔
          SameRest (oldEnd es) (newEnd es) cs (edited cs es))) ∧
      (c.ExplainsEvery cs.length es ↔
        SameRest (oldEnd es) (newEnd es) (origins cs.length ([] : List (Edit Char)))
          (origins cs.length es)) := by
  obtain ⟨c, -, hc, -, -⟩ := gatherEdits_of_valid (by decide) h blank
  refine ⟨c, hc, ?_, explainsEvery_iff h hc⟩
  intro s t hs ht
  obtain ⟨hspans, hiff⟩ := between_burst h hc hs ht
  exact ⟨hspans, (take_leastStart h).2.symm, hiff⟩

/-- Two characters put over two others, one after the other. -/
def overwriting : List (Edit Char) :=
  [put 1 1 'x' 1, put 2 1 'y' 2]

theorem overwriting_explained :
    Valid distanceCount ['a', 'b', 'c', 'd'] overwriting ∧
      ∃ c, blank.gatherEdits overwriting = .ok c ∧ ∀ s t : Snapshot,
        s.toList = ['a', 'b', 'c', 'd'] → t.toList = ['a', 'x', 'y', 'd'] →
          (c.between s t).Explains ['a', 'b', 'c', 'd'] ['a', 'x', 'y', 'd'] := by
  have hvalid : Valid distanceCount ['a', 'b', 'c', 'd'] overwriting := by decide
  obtain ⟨c, hc, hiff, -⟩ := burst_explained_iff hvalid
  refine ⟨hvalid, c, hc, ?_⟩
  intro s t hs ht
  exact (hiff s t hs ht).2.2.mpr (by decide)

/-- Two characters erased one after the other, both at the start of the text. -/
def erasing : List (Edit Char) :=
  [erase 0 1 0, erase 0 1 0]

/-- **Erasing is not explained.** The second character stands where the first one stood when it
goes, so the gathered earlier span `[0, 1)` misses it. -/
theorem erasing_not_explained :
    ¬ ∀ (cs : List Char) (es : List (Edit Char)), Valid distanceCount cs es →
      ∃ c, blank.gatherEdits es = .ok c ∧ ∀ s t : Snapshot,
        s.toList = cs → t.toList = edited cs es → (c.between s t).Explains cs (edited cs es) := by
  intro hall
  have hvalid : Valid distanceCount ['x', 'y'] erasing := by decide
  obtain ⟨c, hc, hx⟩ := hall ['x', 'y'] erasing hvalid
  have hs := Snapshot.toList_plain 0 ['x', 'y']
  have ht := Snapshot.toList_plain 1 (edited ['x', 'y'] erasing)
  obtain ⟨-, -, hrest⟩ := (between_burst hvalid hc hs ht).2.mp (hx _ _ hs ht)
  exact absurd hrest (by decide)

end Change

end DirtyRegion
