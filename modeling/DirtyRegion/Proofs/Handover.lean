import DirtyRegion.Change.Run
import DirtyRegion.Proofs.Batch

/-!
# Handovers — nothing is lost between producers and a consumer

Producers send changes to one gathering change, and a consumer takes it away whenever it likes. The
steps come in any order: `Change.deliveries` are the changes that were sent, `Change.takings` those
that the consumer got. `Change.Conserves` is the invariant: what was taken and what is pending make
up what was sent, and what is pending is no newer than that.

Main statements: `Conserves.step` (one step keeps the invariant), `conserves_run` (so does a run) and
`taken_and_pending_eq_sent`, by which takes show neither in the version nor in the spans.
-/

namespace DirtyRegion

/-- The change that the step delivers. -/
def Step.delivered? : Step → Option Change
  | combine other => some other
  | _ => none

/-- What gathers the same extent keeps its order by version. -/
theorem Extent.version_combine_le {e e' : Extent} (h : e.version ≤ e'.version) (x : Extent) :
    (e.combine x).version ≤ (e'.combine x).version := by
  rw [version_combine, version_combine]
  split_ifs
  · exact h
  · rw [UInt64.le_iff_toNat_le] at h ⊢
    rw [UInt64.toNat_max, UInt64.toNat_max]
    omega

namespace Change

section Defs

/-- The changes that steps deliver, from the left. -/
def deliveries (steps : List Step) : List Change :=
  steps.filterMap Step.delivered?

/-- What was taken and what is pending make up what was sent. A pending change that is empty may
carry the version of the cycles before, and no later one. -/
structure Conserves (sent taken : List Change) (pending : Change) : Prop where
  sum : ((taken.foldl combine blank).combine pending).toExtent =
    (sent.foldl combine blank).toExtent
  version_le : pending.version ≤ (sent.foldl combine blank).version

end Defs

/-! ### One step -/

section Steps

variable {sent taken : List Change} {pending : Change}

theorem conserves_blank : Conserves [] [] blank :=
  ⟨rfl, UInt64.le_refl _⟩

/-- A change that comes after what is pending comes after what was sent: only a pending change that
is empty and newer than all taken could make a difference, and there is none. -/
theorem Conserves.deliver (h : Conserves sent taken pending) (d : Change) :
    Conserves (sent ++ [d]) taken (pending.combine d) := by
  obtain ⟨hsum, hle⟩ := h
  rw [toExtent_combine] at hsum
  refine ⟨?_, ?_⟩
  · simp only [List.foldl_append, List.foldl_cons, List.foldl_nil, toExtent_combine]
    rw [← hsum]
    refine ((Extent.combine_assoc_iff _ _ _).mpr ?_).symm
    -- If the pending change is empty, the version of what was sent is that of what was taken.
    rintro ⟨hempty, -, hnewer⟩
    rw [Extent.combine_of_ignored _ hempty] at hsum
    rw [← hsum, UInt64.le_iff_toNat_le] at hle
    rw [UInt64.lt_iff_toNat_lt, UInt64.toNat_max] at hnewer
    omega
  · rw [List.foldl_append]
    exact Extent.version_combine_le hle d.toExtent

/-- What is pending moves to what was taken, and an empty change is left. -/
theorem Conserves.take (h : Conserves sent taken pending) :
    Conserves sent (taken ++ [pending.take.1]) pending.take.2 := by
  have hleft : pending.take.2.toExtent.isEmpty = true := Extent.isEmpty_reset pending.version
  refine ⟨?_, h.version_le⟩
  rw [List.foldl_append, toExtent_combine, Extent.combine_of_ignored _ hleft]
  exact h.sum

theorem Conserves.attach (h : Conserves sent taken pending) (before after : Snapshot) :
    Conserves sent taken (pending.attach before after) :=
  ⟨h.sum, h.version_le⟩

/-- **One step.** Every step but a reset without a taker keeps the invariant. -/
theorem Conserves.step (h : Conserves sent taken pending) {s : Step} (hs : s ≠ .clear) :
    Conserves (sent ++ s.delivered?.toList) (taken ++ (s.taking? pending).toList)
      (s.apply pending) := by
  cases s with
  | combine other =>
    show Conserves (sent ++ [other]) (taken ++ []) _
    rw [List.append_nil]
    exact h.deliver other
  | attach before after =>
    show Conserves (sent ++ []) (taken ++ []) _
    rw [List.append_nil, List.append_nil]
    exact h.attach before after
  | clear => exact absurd rfl hs
  | take =>
    show Conserves (sent ++ []) _ _
    rw [List.append_nil]
    exact h.take

end Steps

/-! ### Runs -/

section Runs

variable {steps : List Step} {taken : List Change}

/-- **A whole run** keeps the invariant. -/
theorem conserves_run (hclear : Step.clear ∉ steps) :
    Conserves (deliveries steps) (blank.takings steps) (blank.run steps) := by
  induction steps using List.reverseRecOn with
  | nil => exact conserves_blank
  | append_singleton steps s ih =>
    rw [List.mem_append, not_or] at hclear
    obtain ⟨hbefore, hs⟩ := hclear
    have hne : s ≠ .clear := fun h => hs (by simp [h])
    have hlast := (ih hbefore).step hne
    have hsent : deliveries (steps ++ [s]) = deliveries steps ++ s.delivered?.toList := by
      rw [deliveries, List.filterMap_append]
      cases h : s.delivered? <;> simp [deliveries, h]
    rw [hsent, takings_append, run_append]
    simpa [takings] using hlast

/-- **Nothing is lost.** Producers send changes to one blank change, and their steps mix with takes
and new texts in any way. All changes that the consumer got, gathered in any order, and then the
pending one, come to what the changes sent come to without any take. -/
theorem taken_and_pending_eq_sent {sent : List (List Change)} (hclear : Step.clear ∉ steps)
    (hsent : (deliveries steps).Perm sent.flatten) (htaken : taken.Perm (blank.takings steps)) :
    (taken ++ [blank.run steps]).foldl combine blank = sent.flatten.foldl combine blank := by
  have h := conserves_run hclear
  calc (taken ++ [blank.run steps]).foldl combine blank
      = (blank.takings steps ++ [blank.run steps]).foldl combine blank :=
        foldl_combine_perm (htaken.append_right _) blank
    _ = (deliveries steps).foldl combine blank := by
        apply foldl_combine_ext
        rw [List.foldl_append]
        exact h.sum
    _ = sent.flatten.foldl combine blank := foldl_combine_perm hsent blank

/-- One producer deletes a character and then inserts two at the start; another one sends an empty
change that is newer than both. -/
def parcels : List (List Change) :=
  [[ofEditAt 5 8 1 0, ofEditAt 3 0 0 2], [ofEditAt 9 4 0 0]]

/-- The parcels come with takes between them. The second take gets no more than the version of the
first one, and the insertion is pending at the end. -/
def rounds : List Step :=
  [.combine (ofEditAt 5 8 1 0), .take, .combine (ofEditAt 9 4 0 0),
    .attach ⟨0, .plain "abcdefghi"⟩ ⟨1, .plain "abcdefgh"⟩, .take, .combine (ofEditAt 3 0 0 2)]

theorem rounds_conserve_parcels :
    Step.clear ∉ rounds ∧ (deliveries rounds).Perm parcels.flatten ∧
      (blank.takings rounds).reverse.Perm (blank.takings rounds) ∧
      ((blank.takings rounds).reverse ++ [blank.run rounds]).foldl combine blank =
        parcels.flatten.foldl combine blank ∧
      (parcels.flatten.foldl combine blank).toExtent = (ofEditAt 5 0 9 8).toExtent := by
  have hclear : Step.clear ∉ rounds := by simp [rounds]
  have hsent : (deliveries rounds).Perm parcels.flatten := (List.Perm.swap _ _ _).cons _
  have htaken : (blank.takings rounds).reverse.Perm (blank.takings rounds) := List.reverse_perm _
  exact ⟨hclear, hsent, htaken, taken_and_pending_eq_sent hclear hsent htaken, by decide⟩

end Runs

end Change

end DirtyRegion
