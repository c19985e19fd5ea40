import DirtyRegion.Proofs.Replacement

/-!
# Simultaneous replacements — many reports against one pair of texts

Every replacement of a plan is reported with its old span and its new one, and the reports are
gathered in whatever order they come: `Change.gatherBetween`. Which version a report has and which
texts it carries plays no part.

Main statement: `gathered_frames_plan`, by which the two texts agree on both sides of what is
gathered.
-/

namespace DirtyRegion

/-- Both spans of an extent. -/
def Extent.spans (e : Extent) : Span × Span :=
  (e.before, e.after)

/-- Both spans of a replacement. -/
def Replacement.spans {α : Type} (r : Replacement α) : Span × Span :=
  (r.old, r.new)

/-- The change that reports a replacement. -/
def Replacement.report {α : Type} (r : Replacement α) (v : Version) : Change :=
  .ofExtent ⟨v, r.old, r.new⟩

namespace Replacement

open Extent (dirty)

variable {α : Type} {rs : List (Replacement α)} {xs : List Extent}

theorem perm_dirty (h : (xs.map Extent.spans).Perm (rs.map spans)) :
    ((dirty xs).map Extent.spans).Perm ((active rs).map spans) := by
  have hdirty : (dirty xs).map Extent.spans =
      (xs.map Extent.spans).filter fun p => !(p.1.isEmpty && p.2.isEmpty) := by
    rw [List.filter_map]
    rfl
  have hactive : (active rs).map spans =
      (rs.map spans).filter fun p => !(p.1.isEmpty && p.2.isEmpty) := by
    rw [List.filter_map, active]
    simp only [isIdle_eq]
    rfl
  rw [hdirty, hactive]
  exact h.filter _

theorem dirty_eq_nil_iff (h : (xs.map Extent.spans).Perm (rs.map spans)) :
    dirty xs = [] ↔ active rs = [] := by
  have hlen := (perm_dirty h).length_eq
  rw [List.length_map, List.length_map] at hlen
  rw [← List.length_eq_zero_iff, hlen, List.length_eq_zero_iff]

theorem active_eq_nil_iff : active rs = [] ↔ ∀ r ∈ rs, r.isIdle = true := by
  simp [active]

/-- What a blank extent gathers from the reports runs over all active replacements. -/
theorem hulls_gathered (h : (xs.map Extent.spans).Perm (rs.map spans)) (hne : active rs ≠ []) :
    (xs.foldl Extent.combine .blank).before.IsHull ((active rs).map (·.old)) ∧
      (xs.foldl Extent.combine .blank).after.IsHull ((active rs).map (·.new)) := by
  have hg := Extent.gathers_foldl .blank xs
  have hx : dirty xs ≠ [] := fun hx => hne ((dirty_eq_nil_iff h).mp hx)
  have hbefore := hg.before_hull hx
  have hafter := hg.after_hull hx
  rw [Extent.sources_of_isEmpty Extent.isEmpty_blank] at hbefore hafter
  have hold := (perm_dirty h).map Prod.fst
  have hnew := (perm_dirty h).map Prod.snd
  rw [List.map_map, List.map_map] at hold hnew
  exact ⟨hbefore.congr fun _ => hold.mem_iff, hafter.congr fun _ => hnew.mem_iff⟩

end Replacement

namespace Change

open Replacement

variable {ds : List Change} {rs : List (Replacement Char)} {cs : List Char} {s t : Snapshot}

/-- Gathers reports in order and puts what is gathered between two texts. -/
def gatherBetween (ds : List Change) (s t : Snapshot) : Change :=
  (ds.foldl combine blank).between s t

theorem spans_gatherBetween (ds : List Change) (s t : Snapshot) :
    (gatherBetween ds s t).before =
        ((ds.map (·.toExtent)).foldl Extent.combine .blank).before ∧
      (gatherBetween ds s t).after =
        ((ds.map (·.toExtent)).foldl Extent.combine .blank).after := by
  have hfold := toExtent_foldl_combine blank ds
  obtain ⟨hbefore, hafter⟩ := spans_between hfold s t
  exact ⟨hbefore.trans (congrArg Extent.before hfold), hafter.trans (congrArg Extent.after hfold)⟩

theorem perm_toExtent (hperm : (ds.map (·.spans)).Perm (rs.map (·.spans))) :
    ((ds.map (·.toExtent)).map Extent.spans).Perm (rs.map (·.spans)) := by
  rwa [List.map_map]

theorem spans_gatherBetween_of_idle (hperm : (ds.map (·.spans)).Perm (rs.map (·.spans)))
    (hidle : active rs = []) :
    (gatherBetween ds s t).before = .empty ∧ (gatherBetween ds s t).after = .empty := by
  obtain ⟨hbefore, hafter⟩ := spans_gatherBetween ds s t
  have hg := Extent.gathers_foldl .blank (ds.map (·.toExtent))
  have hx := (dirty_eq_nil_iff (perm_toExtent hperm)).mpr hidle
  obtain ⟨hb, ha⟩ := hg.of_nil hx
  exact ⟨hbefore.trans hb, hafter.trans ha⟩

theorem replaceAll_of_idle (hplan : Plan cs rs) (hidle : active rs = []) :
    replaceAll cs rs = cs := by
  rw [replaceAll, replaceFrom_of_active_eq_nil hplan.aligned hidle, List.drop_zero]

theorem frames_of_active (hplan : Plan cs rs)
    (hperm : (ds.map (·.spans)).Perm (rs.map (·.spans))) (hs : s.toList = cs)
    (ht : t.toList = replaceAll cs rs) (hne : active rs ≠ []) :
    (gatherBetween ds s t).Frames cs (replaceAll cs rs) := by
  obtain ⟨hbefore, hafter⟩ := spans_gatherBetween ds s t
  obtain ⟨hb, ha⟩ := hulls_gathered (perm_toExtent hperm) hne
  rw [← hbefore] at hb
  rw [← hafter] at ha
  -- Idle replacements are not gathered, so the hulls are those of the active ones; the text is the
  -- same without the idle ones.
  have halign := hplan.aligned.active
  have hin : ∀ r ∈ active rs, r.old.stop.toNat ≤ cs.length := fun r hr =>
    hplan.inside r (mem_of_mem_active hr)
  have htext : replaceFrom cs 0 (active rs) = replaceAll cs rs := replaceFrom_active hplan.aligned
  obtain ⟨hstart, htake⟩ := halign.hulls_start hne hin hb ha
  have hrest := halign.hulls_stop hne hin hb ha
  rw [htext] at htake hrest
  exact frames_of_sameRest rfl rfl hs ht hstart htake hrest

theorem frames_of_idle (hplan : Plan cs rs)
    (hperm : (ds.map (·.spans)).Perm (rs.map (·.spans))) (hs : s.toList = cs)
    (ht : t.toList = replaceAll cs rs) (hidle : active rs = []) :
    (gatherBetween ds s t).Frames cs (replaceAll cs rs) := by
  obtain ⟨hbefore, hafter⟩ := spans_gatherBetween_of_idle (s := s) (t := t) hperm hidle
  have htext := replaceAll_of_idle hplan hidle
  refine frames_of_sameRest rfl rfl hs ht (by rw [hbefore, hafter]) ?_ ?_
  · rw [htext, hbefore, hafter]
  · rw [htext, hbefore, hafter]
    exact ⟨Nat.zero_le _, Nat.zero_le _, rfl⟩

theorem isEmpty_gatherBetween_iff (hperm : (ds.map (·.spans)).Perm (rs.map (·.spans))) :
    (gatherBetween ds s t).isEmpty = true ↔ active rs = [] := by
  constructor
  · intro hempty
    obtain ⟨hbefore, hafter⟩ := spans_gatherBetween ds s t
    rw [Extent.isEmpty_congr hbefore hafter] at hempty
    have hg := Extent.gathers_foldl .blank (ds.map (·.toExtent))
    have hx := hg.eq_nil_of_isEmpty (fun x hx => (Extent.mem_dirty.mp hx).2) hempty
    exact (dirty_eq_nil_iff (perm_toExtent hperm)).mp hx
  · intro hidle
    obtain ⟨hbefore, hafter⟩ := spans_gatherBetween_of_idle (s := s) (t := t) hperm hidle
    rw [Extent.isEmpty_congr (d := .blank) hbefore hafter, Extent.isEmpty_blank]

/-- **Reports in any order.** The replacements of a plan are reported and gathered in any order.
Between the text before and the text after all of them, both slices are there, the texts agree on
both sides of the spans, and the distance, as far as it fits, is the difference of the two lengths.
What is gathered is empty exactly if all replacements are idle; then it stands at the start, and the
text is the same. -/
theorem gathered_frames_plan (hplan : Plan cs rs)
    (hperm : (ds.map (·.spans)).Perm (rs.map (·.spans))) (hs : s.toList = cs)
    (ht : t.toList = replaceAll cs rs) :
    (gatherBetween ds s t).Frames cs (replaceAll cs rs) ∧
      ((gatherBetween ds s t).isEmpty = true ↔ ∀ r ∈ rs, r.isIdle = true) ∧
      ((∀ r ∈ rs, r.isIdle = true) → (gatherBetween ds s t).before = .empty ∧
        (gatherBetween ds s t).after = .empty ∧ replaceAll cs rs = cs) := by
  rw [isEmpty_gatherBetween_iff hperm, ← active_eq_nil_iff]
  refine ⟨?_, Iff.rfl, ?_⟩
  · by_cases hidle : active rs = []
    · exact frames_of_idle hplan hperm hs ht hidle
    · exact frames_of_active hplan hperm hs ht hidle
  · intro hidle
    obtain ⟨hbefore, hafter⟩ := spans_gatherBetween_of_idle (s := s) (t := t) hperm hidle
    exact ⟨hbefore, hafter, replaceAll_of_idle hplan hidle⟩

/-- Replacements in `abcdef`: an idle one, three characters for `b`, one put right behind them, and
`ef` taken away. -/
def hunks : List (Replacement Char) :=
  [⟨⟨0, 0, by decide⟩, ⟨0, 0, by decide⟩, [], by decide⟩,
    ⟨⟨1, 2, by decide⟩, ⟨1, 4, by decide⟩, ['x', 'y', 'z'], by decide⟩,
    ⟨⟨2, 2, by decide⟩, ⟨4, 5, by decide⟩, ['p'], by decide⟩,
    ⟨⟨4, 6, by decide⟩, ⟨7, 7, by decide⟩, [], by decide⟩]

/-- The reports of `hunks`, the last one first. -/
def hunkReports : List Change :=
  hunks.reverse.map (·.report 3)

theorem hunkReports_frame_plan :
    Plan ['a', 'b', 'c', 'd', 'e', 'f'] hunks ∧
      (hunkReports.map (·.spans)).Perm (hunks.map (·.spans)) ∧
      (gatherBetween hunkReports ⟨0, .plain (String.ofList ['a', 'b', 'c', 'd', 'e', 'f'])⟩
        ⟨1, .plain (String.ofList ['a', 'x', 'y', 'z', 'p', 'c', 'd'])⟩).Frames
          ['a', 'b', 'c', 'd', 'e', 'f'] ['a', 'x', 'y', 'z', 'p', 'c', 'd'] := by
  have hplan : Plan ['a', 'b', 'c', 'd', 'e', 'f'] hunks := by decide
  have hperm : (hunkReports.map (·.spans)).Perm (hunks.map (·.spans)) := by decide
  have htext : replaceAll ['a', 'b', 'c', 'd', 'e', 'f'] hunks =
      ['a', 'x', 'y', 'z', 'p', 'c', 'd'] := by decide
  have hs := Snapshot.toList_plain 0 ['a', 'b', 'c', 'd', 'e', 'f']
  have ht := Snapshot.toList_plain 1 ['a', 'x', 'y', 'z', 'p', 'c', 'd']
  obtain ⟨hframes, -⟩ := gathered_frames_plan hplan hperm hs (ht.trans htext.symm)
  exact ⟨hplan, hperm, htext ▸ hframes⟩

end Change

end DirtyRegion
